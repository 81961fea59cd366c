import RondeDesFacs.Course.Interleaving
import RondeDesFacs.Library.Overlay
import RondeDesFacs.Web.Pictures

/-!
# Registrations at the same time

A registration is no single step.  `traitement.php` moves the avatar, moves the certificate,
inserts the row, and asks for the row again to open the session.  Between these everything may
happen: steps of other registrations, and statements of machines.

The `INSERT` is where a registration takes place.  The tables are at any time what they are if
the registrations come one at a time, in the order of their `INSERT`s, whatever the requests
are.  The files are not: of two registrations with one number, one may write the pictures last
and the other the row.  They are, exactly if no two registrations leave different contents in
one place (`registrations_one_at_a_time`).  Nor are the sessions: a registration may be given
the session of another with its number.  But registrations that keep their numbers apart open
the sessions that they open one at a time (`sessions_one_at_a_time`).

So the race, in which a registration is one event, loses nothing of the tables.
-/

namespace RondeDesFacs
namespace Course

open Web Query Overlay

variable {srv : Serveur} {cs : Charset} {Loc V : Type*}

/-! ## The steps of a registration -/

/-- How far a registration has come: nothing is done, the avatar is moved, the certificate is
moved, the row is inserted or refused, the session is opened or not. -/
inductive Phase (srv : Serveur) (cs : Charset) where
  | debut
  | avatar
  | certif
  | insere (x : Option (Inscription srv cs))
  | fini (v : Visite)

/-- The next step is the `INSERT`. -/
def Phase.inscrit : Phase srv cs → Bool
  | .certif => true
  | _ => false

/-- A site where registrations are under way.  `histoire` is what has reached the tables, in its
order: registrations with their `INSERT`, and statements of machines. -/
structure Moment (srv : Serveur) (cs : Charset) (Loc V : Type*) where
  site : Site srv cs Loc
  phases : V → Phase srv cs
  histoire : List (V ⊕ Envoi)

/-- What happens: a registration takes its next step, or a machine sends a statement. -/
inductive Pas (V : Type*) where
  | requete (v : V)
  | statement (e : Envoi)

/-- `SELECT * FROM participant WHERE PART_IDETUDIANT=:numEtudiant`. -/
def retrouves (cs : Charset) (participant : List Participant) (d : Demande) : List Participant :=
  participant.filter fun p => egal cs p.partIdEtudiant d.numEtudiant.stripslashes

/-- The session of a visitor after the `INSERT`: if it has succeeded, his row is asked for. -/
def ouvre (s : Site srv cs Loc) (r : Etape) : Option (Inscription srv cs) → Visite
  | none => visite cs r.avant none
  | some _ => visite cs r.avant (r.issue.ordre.fetch (retrouves cs s.bdd.participant r.demande))

namespace Moment

section Steps

variable [DecidableEq Loc] [DecidableEq V] (resolve : Bytes → Loc) (reqs : V → Etape)

/-- The site before any of them. -/
def depart (s : Site srv cs Loc) : Moment srv cs Loc V := ⟨s, fun _ => .debut, []⟩

/-- The site and the phase of a registration after its next step. -/
def avance (s : Site srv cs Loc) (r : Etape) : Phase srv cs → Site srv cs Loc × Phase srv cs
  | .debut =>
    let fichiers := deposer resolve dirAvatar r.demande.filename r.demande.avatar
      r.issue.avatarDeplace s.fichiers
    ({ s with fichiers := fichiers }, .avatar)
  | .avatar =>
    let fichiers := deposer resolve dirCertif r.demande.filename r.demande.certificat
      r.issue.certifDeplace s.fichiers
    ({ s with fichiers := fichiers }, .certif)
  | .certif =>
    let x := Web.insere s r.demande r.issue
    let participant := s.bdd.participant ++ x.toList.map (·.row)
    ({ s with bdd := { s.bdd with participant := participant },
              registre := s.registre ++ x.toList }, .insere x)
  | .insere x => (s, .fini (ouvre s r x))
  | .fini v => (s, .fini v)

/-- What a step of a registration adds to the history. -/
def ajout (v : V) (phase : Phase srv cs) : List (V ⊕ Envoi) :=
  if phase.inscrit then [.inl v] else []

/-- The site after a step. -/
def apres (σ : Moment srv cs Loc V) : Pas V → Moment srv cs Loc V
  | .requete v =>
    let r := avance resolve σ.site (reqs v) (σ.phases v)
    ⟨r.1, Function.update σ.phases v r.2, σ.histoire ++ ajout v (σ.phases v)⟩
  | .statement e =>
    { σ with
      site := { σ.site with bdd := e.apres σ.site.bdd },
      histoire := σ.histoire ++ [.inr e] }

/-- The site after a run. -/
def apresTout (s : Site srv cs Loc) (run : List (Pas V)) : Moment srv cs Loc V :=
  run.foldl (apres resolve reqs) (depart s)

end Steps

/-! ## One at a time -/

section OneAtATime

variable [DecidableEq Loc] (resolve : Bytes → Loc) (reqs : V → Etape)

/-- The site if what has reached the tables had come one at a time. -/
def unParUn (s : Site srv cs Loc) (histoire : List (V ⊕ Envoi)) : Site srv cs Loc :=
  course resolve s (histoire.map (Sum.elim (fun v => .inscription (reqs v)) .statement))

theorem unParUn_append (s : Site srv cs Loc) (h h' : List (V ⊕ Envoi)) :
    unParUn resolve reqs s (h ++ h') =
      unParUn resolve reqs (unParUn resolve reqs s h) h' := by
  rw [unParUn, List.map_append, course, List.foldl_append]
  rfl

end OneAtATime

end Moment

/-! ## The tables -/

/-- Two sites with the same tables and registrations. -/
def Memes (s t : Site srv cs Loc) : Prop := s.bdd = t.bdd ∧ s.registre = t.registre

theorem Memes.eq {s t : Site srv cs Loc} (h : Memes s t) (hfichiers : s.fichiers = t.fichiers) :
    s = t := by
  cases s
  cases t
  obtain ⟨rfl, rfl⟩ := h
  obtain rfl := hfichiers
  rfl

theorem Memes.insere_eq {s t : Site srv cs Loc} (h : Memes s t) (d : Demande) (o : Issue) :
    Web.insere s d o = Web.insere t d o := by
  unfold Web.insere
  rw [h.1]

section Tables

variable [DecidableEq Loc] (resolve : Bytes → Loc)

/-- A registration at once, as far as the tables go. -/
theorem memes_apres (s : Site srv cs Loc) (r : Etape) :
    Memes (Web.apres resolve s r)
      { s with
        bdd := { s.bdd with participant :=
          s.bdd.participant ++ (Web.insere s r.demande r.issue).toList.map (·.row) },
        registre := s.registre ++ (Web.insere s r.demande r.issue).toList } := by
  rcases apres_cases resolve s r with ⟨hnone, h⟩ | ⟨x, hx, h⟩
  · rw [h, hnone]
    exact ⟨by simp, by simp⟩
  · rw [h, hx]
    exact ⟨rfl, rfl⟩

theorem Memes.apres {s t : Site srv cs Loc} (h : Memes s t) (r : Etape) :
    Memes (Web.apres resolve s r) (Web.apres resolve t r) := by
  obtain ⟨hbdd, hregistre⟩ := memes_apres resolve s r
  obtain ⟨hbdd', hregistre'⟩ := memes_apres resolve t r
  rw [Memes, hbdd, hbdd', hregistre, hregistre', h.insere_eq, h.1, h.2]
  exact ⟨rfl, rfl⟩

/-- **A step of a registration** reaches the tables only if it is the `INSERT`. -/
theorem memes_avance (s : Site srv cs Loc) (r : Etape) (phase : Phase srv cs) :
    Memes (Moment.avance resolve s r phase).1
      (if phase.inscrit then Web.apres resolve s r else s) := by
  rcases phase with _ | _ | _ | x | vis
  · exact ⟨rfl, rfl⟩
  · exact ⟨rfl, rfl⟩
  · obtain ⟨hbdd, hregistre⟩ := memes_apres resolve s r
    exact ⟨hbdd.symm, hregistre.symm⟩
  · exact ⟨rfl, rfl⟩
  · exact ⟨rfl, rfl⟩

variable [DecidableEq V] {reqs : V → Etape} {s : Site srv cs Loc} {σ : Moment srv cs Loc V}

namespace Moment

/-- **A step keeps the tables** those of the registrations one at a time. -/
theorem memes_apres (h : Memes σ.site (unParUn resolve reqs s σ.histoire)) (p : Pas V) :
    Memes (σ.apres resolve reqs p).site
      (unParUn resolve reqs s (σ.apres resolve reqs p).histoire) := by
  cases p with
  | requete v =>
    have hstep := memes_avance resolve σ.site (reqs v) (σ.phases v)
    rw [apres]
    dsimp only
    rw [unParUn_append, ajout]
    split_ifs at hstep ⊢
    · have hatomic := h.apres resolve (reqs v)
      exact ⟨hstep.1.trans hatomic.1, hstep.2.trans hatomic.2⟩
    · exact ⟨hstep.1.trans h.1, hstep.2.trans h.2⟩
  | statement e =>
    rw [apres]
    dsimp only
    rw [unParUn_append]
    exact ⟨congrArg e.apres h.1, h.2⟩

end Moment

end Tables

/-! ## The sessions -/

/-- A registration is in the history once, there. -/
structure Place (histoire : List (V ⊕ Envoi)) (v : V) (avant suite : List (V ⊕ Envoi)) :
    Prop where
  eq : histoire = avant ++ .inl v :: suite
  avant : .inl v ∉ avant
  suite : .inl v ∉ suite

theorem Place.append {histoire avant suite l : List (V ⊕ Envoi)} {v : V}
    (h : Place histoire v avant suite) (hl : .inl v ∉ l) :
    Place (histoire ++ l) v avant (suite ++ l) where
  eq := by rw [h.eq, List.append_assoc, List.cons_append]
  avant := h.avant
  suite := List.mem_append.not.mpr (not_or.mpr ⟨h.suite, hl⟩)

section Sessions

variable [DecidableEq Loc] (resolve : Bytes → Loc) {reqs : V → Etape} {s : Site srv cs Loc}

/-- No registration finds the row of another. -/
def Numeros (srv : Serveur) (cs : Charset) (reqs : V → Etape) : Prop :=
  ∀ v w, w ≠ v → ∀ partId row, ligne srv cs partId (reqs w).demande = some row →
    egal cs row.partIdEtudiant (reqs v).demande.numEtudiant.stripslashes = false

/-- A statement that adds no participant. -/
def Pas.Sobre : Pas V → Prop
  | .requete _ => True
  | .statement e => ∀ b, (e.apres b).participant = b.participant

namespace Moment

/-- A registration has done, as far as it has come, what it does on its own. -/
def Juste (reqs : V → Etape) (s : Site srv cs Loc) (participant : List Participant)
    (histoire : List (V ⊕ Envoi)) (v : V) : Phase srv cs → Prop
  | .debut => .inl v ∉ histoire
  | .avatar => .inl v ∉ histoire
  | .certif => .inl v ∉ histoire
  | .insere x => ∃ avant suite, Place histoire v avant suite ∧
      x = Web.insere (unParUn resolve reqs s avant) (reqs v).demande (reqs v).issue ∧
      ∀ y ∈ x, retrouves cs participant (reqs v).demande =
        retrouves cs ((unParUn resolve reqs s avant).bdd.participant ++ [y.row]) (reqs v).demande
  | .fini vis => ∃ avant suite, Place histoire v avant suite ∧
      vis = (traitement resolve (unParUn resolve reqs s avant) (reqs v).avant (reqs v).demande
        (reqs v).issue).2

/-- The participants after a step of a registration. -/
theorem participant_avance (s : Site srv cs Loc) (r : Etape) (phase : Phase srv cs) :
    (avance resolve s r phase).1.bdd.participant = s.bdd.participant ++
      (if phase.inscrit then (Web.insere s r.demande r.issue).toList.map (·.row) else []) := by
  rcases phase with _ | _ | _ | x | vis
  · exact (List.append_nil _).symm
  · exact (List.append_nil _).symm
  · rfl
  · exact (List.append_nil _).symm
  · exact (List.append_nil _).symm

/-- **What somebody else does** changes nothing for a registration. -/
theorem Juste.of_autre {participant participant' : List Participant}
    {histoire l : List (V ⊕ Envoi)} {v : V} {phase : Phase srv cs}
    (h : Juste resolve reqs s participant histoire v phase) (hl : .inl v ∉ l)
    (hretrouves : retrouves cs participant' (reqs v).demande =
      retrouves cs participant (reqs v).demande) :
    Juste resolve reqs s participant' (histoire ++ l) v phase := by
  have hnotMem : .inl v ∉ histoire → .inl v ∉ histoire ++ l := fun hnot =>
    List.mem_append.not.mpr (not_or.mpr ⟨hnot, hl⟩)
  rcases phase with _ | _ | _ | x | vis
  · exact hnotMem h
  · exact hnotMem h
  · exact hnotMem h
  · obtain ⟨avant, suite, hplace, hx, hfound⟩ := h
    exact ⟨avant, suite ++ l, hplace.append hl, hx, fun y hy => hretrouves.trans (hfound y hy)⟩
  · obtain ⟨avant, suite, hplace, hvis⟩ := h
    exact ⟨avant, suite ++ l, hplace.append hl, hvis⟩

/-- **Its own step.** -/
theorem Juste.of_meme {site : Site srv cs Loc} {histoire : List (V ⊕ Envoi)} {v : V}
    {phase : Phase srv cs} (h : Juste resolve reqs s site.bdd.participant histoire v phase)
    (hmemes : Memes site (unParUn resolve reqs s histoire)) :
    Juste resolve reqs s (avance resolve site (reqs v) phase).1.bdd.participant
      (histoire ++ ajout v phase) v (avance resolve site (reqs v) phase).2 := by
  rcases phase with _ | _ | _ | x | vis
  · exact (List.append_nil histoire).symm ▸ h
  · exact (List.append_nil histoire).symm ▸ h
  · refine ⟨histoire, [], ⟨rfl, h, List.not_mem_nil⟩, hmemes.insere_eq _ _, fun y hy => ?_⟩
    have hsome : Web.insere site (reqs v).demande (reqs v).issue = some y := hy
    rw [participant_avance, hsome, ← hmemes.1]
    rfl
  · obtain ⟨avant, suite, hplace, hx, hfound⟩ := h
    have hhistoire : histoire ++ ajout v (Phase.insere x) = histoire := List.append_nil histoire
    rw [hhistoire]
    rcases x with _ | y
    · refine ⟨avant, suite, hplace, ?_⟩
      rw [traitement_of_none resolve hx.symm]
      rfl
    · refine ⟨avant, suite, hplace, ?_⟩
      rw [traitement_of_some resolve hx.symm]
      show visite cs _ _ = visite cs _ _
      rw [hfound y rfl]
      rfl
  · exact (List.append_nil histoire).symm ▸ h

variable [DecidableEq V] {σ : Moment srv cs Loc V}

/-- **A step** keeps the registrations right that keep their numbers apart. -/
theorem juste_apres (hnumeros : Numeros srv cs reqs)
    (hmemes : Memes σ.site (unParUn resolve reqs s σ.histoire))
    (h : ∀ v, Juste resolve reqs s σ.site.bdd.participant σ.histoire v (σ.phases v))
    {p : Pas V} (hp : p.Sobre) (v : V) :
    Juste resolve reqs s (σ.apres resolve reqs p).site.bdd.participant
      (σ.apres resolve reqs p).histoire v ((σ.apres resolve reqs p).phases v) := by
  cases p with
  | requete w =>
    rw [apres]
    dsimp only
    by_cases hv : v = w
    · rw [hv, Function.update_self]
      exact (h w).of_meme resolve hmemes
    · rw [Function.update_of_ne hv]
      refine (h v).of_autre resolve ?_ ?_
      · rw [ajout]
        split_ifs
        · exact fun hmem => hv (Sum.inl_injective (List.mem_singleton.mp hmem))
        · exact List.not_mem_nil
      · -- the row of another registration is not found
        rw [participant_avance, retrouves, List.filter_append, ← retrouves]
        convert List.append_nil _
        rw [List.filter_eq_nil_iff]
        intro row hrow
        split_ifs at hrow
        · obtain ⟨x, hx, rfl⟩ := List.mem_map.mp hrow
          have hsome := Option.mem_toList.mp hx
          rw [hnumeros v w (Ne.symm hv) _ x.row (insere_eq_some hsome).2.1]
          exact Bool.false_ne_true
        · exact absurd hrow List.not_mem_nil
  | statement e =>
    refine (h v).of_autre resolve (by simp) ?_
    show retrouves cs (e.apres σ.site.bdd).participant _ = _
    rw [hp]

end Moment

end Sessions

/-! ## The files -/

section Files

variable [DecidableEq Loc] (resolve : Bytes → Loc)

/-- What a request lays over a place with one of its files. -/
def couche (i : Image) (r : Etape) (l : Loc) : Option Bytes :=
  ((i.valide r.demande).filter fun f =>
    i.deplace r.issue && decide (cible resolve i r.demande f = l)).map (·.content)

theorem deposer_eq (i : Image) (r : Etape) (fichiers : Loc → Option Bytes) :
    deposer resolve i.dossier r.demande.filename (i.fichier r.demande) (i.deplace r.issue)
      fichiers = fun l => (couche resolve i r l).or (fichiers l) := by
  funext l
  by_cases h : ∃ f ∈ i.valide r.demande, i.deplace r.issue = true ∧ cible resolve i r.demande f = l
  · obtain ⟨f, hf, hdeplace, rfl⟩ := h
    have hcouche : couche resolve i r (cible resolve i r.demande f) = some f.content := by
      rw [couche, Option.mem_def.mp hf]
      simp [hdeplace]
    rw [hcouche, hdeplace]
    exact deposer_self resolve hf fichiers
  · have hcouche : couche resolve i r l = none := by
      rw [couche, Option.map_eq_none_iff, Option.filter_eq_none_iff]
      intro f hf hl
      rw [Bool.and_eq_true, decide_eq_true_eq] at hl
      exact h ⟨f, hf, hl.1, hl.2⟩
    rw [hcouche, Option.none_or]
    exact deposer_of_ne resolve fun f hf hdeplace hl => h ⟨f, hf, hdeplace, hl⟩

/-- What a registration that is over has laid over a place. -/
def couches (r : Etape) (l : Loc) : Option Bytes :=
  (couche resolve .certif r l).or (couche resolve .avatar r l)

/-- What it has laid when it has come so far. -/
def pose (r : Etape) : Phase srv cs → Loc → Option Bytes
  | .debut => fun _ => none
  | .avatar => couche resolve .avatar r
  | _ => couches resolve r

/-- What its next step lays. -/
def suivante (r : Etape) : Phase srv cs → Loc → Option Bytes
  | .debut => couche resolve .avatar r
  | .avatar => couche resolve .certif r
  | _ => fun _ => none

/-- What it has laid if it takes place with its `INSERT`. -/
def poseInscrite (r : Etape) : Phase srv cs → Loc → Option Bytes
  | .insere _ => couches resolve r
  | .fini _ => couches resolve r
  | _ => fun _ => none

/-- The files after a step. -/
theorem fichiers_avance (s : Site srv cs Loc) (r : Etape) (phase : Phase srv cs) :
    (Moment.avance resolve s r phase).1.fichiers =
      fun l => (suivante resolve r phase l).or (s.fichiers l) := by
  rcases phase with _ | _ | _ | x | vis
  · exact deposer_eq resolve .avatar r s.fichiers
  · exact deposer_eq resolve .certif r s.fichiers
  · rfl
  · rfl
  · rfl

theorem pose_avance (s : Site srv cs Loc) (r : Etape) (phase : Phase srv cs) :
    pose resolve r (Moment.avance resolve s r phase).2 =
      fun l => (suivante resolve r phase l).or (pose resolve r phase l) := by
  rcases phase with _ | _ | _ | x | vis
  · exact funext fun l => Option.or_none.symm
  · rfl
  · rfl
  · rfl
  · rfl

/-- The files after both uploads. -/
theorem deposes_eq_or (s : Site srv cs Loc) (r : Etape) :
    deposes resolve s r.demande r.issue = fun l => (couches resolve r l).or (s.fichiers l) := by
  have havatar := deposer_eq resolve .avatar r s.fichiers
  have hcertif := deposer_eq resolve .certif r fun l =>
    (couche resolve .avatar r l).or (s.fichiers l)
  rw [← havatar] at hcertif
  refine hcertif.trans (funext fun l => ?_)
  rw [couches, Option.or_assoc]

/-- The files after a registration at once. -/
theorem fichiers_apres (s : Site srv cs Loc) (r : Etape) :
    (Web.apres resolve s r).fichiers = fun l => (couches resolve r l).or (s.fichiers l) := by
  rw [← deposes_eq_or]
  rcases apres_cases resolve s r with ⟨-, h⟩ | ⟨x, -, h⟩ <;> rw [h]

theorem poseInscrite_avance (s : Site srv cs Loc) (r : Etape) (phase : Phase srv cs) :
    poseInscrite resolve r (Moment.avance resolve s r phase).2 =
      if phase.inscrit then fun l => (couches resolve r l).or (poseInscrite resolve r phase l)
      else poseInscrite resolve r phase := by
  rcases phase with _ | _ | _ | x | vis
  · rfl
  · rfl
  · exact funext fun l => Option.or_none.symm
  · rfl
  · rfl

variable [DecidableEq V] {reqs : V → Etape} {s : Site srv cs Loc} {σ : Moment srv cs Loc V}

namespace Moment

/-- **A step** lays the next files of a registration. -/
theorem covers_apres
    (h : Covers s.fichiers σ.site.fichiers fun v => pose resolve (reqs v) (σ.phases v))
    (p : Pas V) :
    Covers s.fichiers (σ.apres resolve reqs p).site.fichiers fun v =>
      pose resolve (reqs v) ((σ.apres resolve reqs p).phases v) := by
  cases p with
  | requete v =>
    have hnext := h.or v (suivante resolve (reqs v) (σ.phases v))
    rw [← fichiers_avance, ← pose_avance resolve σ.site] at hnext
    refine (congrArg (Covers _ _) (funext fun w => ?_)).mpr hnext
    exact Function.apply_update (fun w phase => pose resolve (reqs w) phase) σ.phases v _ w
  | statement e => exact h

/-- **With the `INSERT`** all the files of a registration are laid, one at a time. -/
theorem covers_unParUn
    (h : Covers s.fichiers (unParUn resolve reqs s σ.histoire).fichiers fun v =>
      poseInscrite resolve (reqs v) (σ.phases v)) (p : Pas V) :
    Covers s.fichiers (unParUn resolve reqs s (σ.apres resolve reqs p).histoire).fichiers fun v =>
      poseInscrite resolve (reqs v) ((σ.apres resolve reqs p).phases v) := by
  cases p with
  | requete v =>
    rw [apres]
    dsimp only
    have hphases := funext fun w => Function.apply_update
      (fun w phase => poseInscrite resolve (reqs w) phase) σ.phases v
      (avance resolve σ.site (reqs v) (σ.phases v)).2 w
    rw [hphases, poseInscrite_avance, unParUn_append, ajout]
    split_ifs
    · have hnext := h.or v (couches resolve (reqs v))
      rw [← fichiers_apres] at hnext
      exact hnext
    · rw [Function.update_eq_self]
      exact h
  | statement e =>
    rw [apres]
    dsimp only
    rw [unParUn_append]
    exact h

end Moment

end Files

/-! ## Runs -/

section Runs

variable [DecidableEq Loc] [DecidableEq V] (resolve : Bytes → Loc) (reqs : V → Etape)
  (s : Site srv cs Loc) (run : List (Pas V))

/-- The registration is over, or has not begun. -/
def Phase.Repos (phase : Phase srv cs) : Prop := phase = .debut ∨ ∃ vis, phase = .fini vis

/-- No two registrations leave different contents in one place. -/
def SansConflit : Prop :=
  ∀ v w, w ≠ v → ∀ l, ∀ b ∈ couches resolve (reqs v) l, ∀ c ∈ couches resolve (reqs w) l, b = c

theorem Phase.Repos.pose_eq {phase : Phase srv cs} (h : phase.Repos) (r : Etape) :
    pose resolve r phase = poseInscrite resolve r phase := by
  rcases h with rfl | ⟨vis, rfl⟩ <;> rfl

theorem mem_couches_of_mem_pose {phase : Phase srv cs} (h : phase.Repos) {r : Etape} {l : Loc}
    {b : Bytes} (hb : b ∈ poseInscrite resolve r phase l) : b ∈ couches resolve r l := by
  rcases h with rfl | ⟨vis, rfl⟩
  · cases hb
  · exact hb

namespace Moment

/-- The tables are those of the registrations one at a time. -/
def Enregistre (σ : Moment srv cs Loc V) : Prop :=
  Memes σ.site (unParUn resolve reqs s σ.histoire)

/-- Every registration has laid its files, as far as it has come, and all of them one at a
time. -/
def Depose (σ : Moment srv cs Loc V) : Prop :=
  (Covers s.fichiers σ.site.fichiers fun v => pose resolve (reqs v) (σ.phases v)) ∧
    Covers s.fichiers (unParUn resolve reqs s σ.histoire).fichiers fun v =>
      poseInscrite resolve (reqs v) (σ.phases v)

/-- Every registration has done what it does on its own. -/
def Seule (σ : Moment srv cs Loc V) : Prop :=
  Enregistre resolve reqs s σ ∧
    ∀ v, Juste resolve reqs s σ.site.bdd.participant σ.histoire v (σ.phases v)

theorem enregistre_apresTout :
    Enregistre resolve reqs s (apresTout resolve reqs s run) := by
  refine List.foldlRecOn run (apres resolve reqs) ⟨rfl, rfl⟩ fun σ h p _ => ?_
  exact memes_apres resolve h p

theorem depose_apresTout : Depose resolve reqs s (apresTout resolve reqs s run) := by
  refine List.foldlRecOn run (apres resolve reqs) ?_ fun σ h p _ => ?_
  · exact ⟨covers_none s.fichiers, covers_none s.fichiers⟩
  · exact ⟨covers_apres resolve h.1 p, covers_unParUn resolve h.2 p⟩

variable {reqs}

theorem seule_apresTout (hnumeros : Numeros srv cs reqs) (hrun : ∀ p ∈ run, p.Sobre) :
    Seule resolve reqs s (apresTout resolve reqs s run) := by
  refine List.foldlRecOn run (apres resolve reqs) ?_ fun σ h p hp => ?_
  · exact ⟨⟨rfl, rfl⟩, fun v => List.not_mem_nil⟩
  · exact ⟨memes_apres resolve h.1 p, juste_apres resolve hnumeros h.1 h.2 (hrun p hp)⟩

/-- **Without conflicts** the files are those of the registrations one at a time. -/
theorem fichiers_apresTout (hconflit : SansConflit resolve reqs)
    (hrepos : ∀ v, ((apresTout resolve reqs s run).phases v).Repos) :
    (apresTout resolve reqs s run).site.fichiers =
      (unParUn resolve reqs s (apresTout resolve reqs s run).histoire).fichiers := by
  obtain ⟨hcovers, hcovers'⟩ := depose_apresTout resolve reqs s run
  have hpose := funext fun v => (hrepos v).pose_eq resolve (reqs v)
  rw [hpose] at hcovers
  refine hcovers.eq hcovers' fun v w l b hb c hc => ?_
  have hv := mem_couches_of_mem_pose resolve (hrepos v) hb
  have hw := mem_couches_of_mem_pose resolve (hrepos w) hc
  by_cases hne : w = v
  · rw [hne] at hw
    exact Option.mem_unique hv hw
  · exact hconflit v w hne l b hv c hw

/-- **Two registrations that cross**: one moves its files last, and the other inserts its row
last. -/
theorem fichiers_croises {v w : V} (hne : w ≠ v) :
    ∃ run : List (Pas V), (∀ u, ((apresTout resolve reqs s run).phases u).Repos) ∧
      (apresTout resolve reqs s run).histoire = [.inl w, .inl v] ∧
      (apresTout resolve reqs s run).site.fichiers = fun l =>
        (couches resolve (reqs w) l).or ((couches resolve (reqs v) l).or (s.fichiers l)) := by
  refine ⟨[v, v, w, w, w, v, w, v].map .requete, fun u => ?_, ?_, ?_⟩
  · by_cases hv : u = v
    · subst hv
      right
      simp [apresTout, apres, depart, avance, hne, hne.symm]
    · by_cases hw : u = w
      · subst hw
        right
        simp [apresTout, apres, depart, avance, hne, hne.symm]
      · left
        simp [apresTout, apres, depart, hv, hw]
  · simp [apresTout, apres, depart, avance, ajout, Phase.inscrit, hne, hne.symm]
  · have hv := deposes_eq_or resolve s (reqs v)
    have hw := deposes_eq_or resolve
      { s with fichiers := deposes resolve s (reqs v).demande (reqs v).issue } (reqs w)
    simp only [hv] at hw
    rw [← hw]
    simp [apresTout, apres, depart, avance, hne, hne.symm, deposes, ← hv]

end Moment

/-- **Registrations one at a time.**  Whatever happens in whatever order, the tables are those
of the registrations one at a time, in the order of their `INSERT`s.  Whenever no registration
is under way, so are the files: exactly if no two registrations leave different contents in one
place. -/
theorem registrations_one_at_a_time :
    (∀ run, Memes (Moment.apresTout resolve reqs s run).site
      (Moment.unParUn resolve reqs s (Moment.apresTout resolve reqs s run).histoire)) ∧
    ((∀ run, (∀ v, ((Moment.apresTout resolve reqs s run).phases v).Repos) →
        (Moment.apresTout resolve reqs s run).site =
          Moment.unParUn resolve reqs s (Moment.apresTout resolve reqs s run).histoire) ↔
      SansConflit resolve reqs) := by
  refine ⟨Moment.enregistre_apresTout resolve reqs s, fun h v w hne l b hb c hc => ?_,
    fun hconflit run hrepos => ?_⟩
  · obtain ⟨run, hrepos, hhistoire, hfichiers⟩ := Moment.fichiers_croises resolve s hne
    have hsite := congrFun (congrArg Site.fichiers (h run hrepos)) l
    rw [hfichiers, hhistoire] at hsite
    have hv : (Moment.unParUn resolve reqs s [.inl w, .inl v]).fichiers l = some b := by
      show (Web.apres resolve (Web.apres resolve s (reqs w)) (reqs v)).fichiers l = some b
      rw [fichiers_apres]
      dsimp only
      rw [Option.mem_def.mp hb, Option.some_or]
    dsimp only at hsite
    rw [hv, Option.mem_def.mp hc, Option.some_or] at hsite
    exact Option.some_inj.mp hsite.symm
  · exact (Moment.enregistre_apresTout resolve reqs s run).eq
      (Moment.fichiers_apresTout resolve s run hconflit hrepos)

/-- **Sessions one at a time.**  If no registration finds the row of another, and no statement
adds a participant, each opens the session that it opens one at a time, after those whose
`INSERT`s came before its own. -/
theorem sessions_one_at_a_time (hnumeros : Numeros srv cs reqs) (hrun : ∀ p ∈ run, p.Sobre)
    (v : V) (vis : Visite) (hv : (Moment.apresTout resolve reqs s run).phases v = .fini vis) :
    ∃ avant suite, Place (Moment.apresTout resolve reqs s run).histoire v avant suite ∧
      vis = (traitement resolve (Moment.unParUn resolve reqs s avant) (reqs v).avant
        (reqs v).demande (reqs v).issue).2 := by
  have hjuste := (Moment.seule_apresTout resolve s run hnumeros hrun).2 v
  rw [hv] at hjuste
  exact hjuste

end Runs

/-! ## Two students -/

/-- The registration of one student, and that of the other. -/
def deux : Bool → Etape
  | false => etapePhoto
  | true => ⟨vierge, demandeDe "55667788" "autre@site.fr" "secret2" "Autre" (some (photo [2])),
      issueDe 2 true⟩

/-- Their steps, in turn. -/
def enAlternance : List (Pas Bool) :=
  [.requete false, .requete true, .requete false, .requete true, .requete false, .requete true,
    .requete false, .requete true]

theorem numeros_deux : Numeros laxiste Charset.latin1 deux := by
  rintro (_ | _) (_ | _) hne partId row hrow
  · exact absurd rfl hne
  · cases hrow
    dsimp only
    decide
  · cases hrow
    dsimp only
    decide
  · exact absurd rfl hne

/-- The other student, whose row comes second, opens his own session. -/
theorem sessions_one_at_a_time_deux :
    ∃ vis, (Moment.apresTout id deux siteVide enAlternance).phases true = .fini vis ∧
      ∃ avant suite,
        Place (Moment.apresTout id deux siteVide enAlternance).histoire true avant suite ∧
        vis = (traitement id (Moment.unParUn id deux siteVide avant) (deux true).avant
          (deux true).demande (deux true).issue).2 :=
  ⟨_, rfl, sessions_one_at_a_time id deux siteVide enAlternance numeros_deux
    (by simp [enAlternance, Pas.Sobre]) true _ rfl⟩

end Course
end RondeDesFacs
