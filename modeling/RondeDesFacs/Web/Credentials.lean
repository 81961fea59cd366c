import RondeDesFacs.Web.Connexion

/-!
# Credentials

Registration and login meet in two columns.  The registration sends the e-mail and
the password through `stripslashes` and a connection in the server's character set,
and the columns cut them off; the login sends them as they are, in `utf8`, and refuses
what PHP takes for `empty`.  The comparison is that of the collation, to which case
and trailing spaces are nothing.

Two questions are settled here.

* *Whether who has registered can log in* (`credentials_agree`).  The strings must
  survive the way into the columns, which `Garde` says; in ASCII that is to have no
  backslash and nothing but spaces past the width of the column
  (`garde_iff_of_ascii`).
* *Whether who logs in has registered* (`login_sound`).  There a string stands for
  all the strings the collation takes for it, so the login is open to whoever submits
  one of these.
-/

namespace RondeDesFacs
namespace Web

open Query

/-! ## The login form -/

/-- The fields of the login form. -/
def formulaire (e p : Bytes) : Post := [(ascii "email", .texte e), (ascii "mdp", .texte p)]

theorem lu_email_formulaire (e p : Bytes) : lu (formulaire e p) (ascii "email") = some (.texte e) :=
  rfl

theorem lu_mdp_formulaire (e p : Bytes) : lu (formulaire e p) (ascii "mdp") = some (.texte p) :=
  rfl

/-! ## What the columns keep -/

/-- What a column of width `w` keeps of a field is, for `=`, the field itself. -/
def Garde (cs utf8 : Charset) (w : ℕ) (b : Bytes) : Prop :=
  ∃ t u, cs.decode (stripslashes b) = some t ∧ utf8.decode b = some u ∧ SameText (t.take w) u

theorem mem_stripslashes {b : Bytes} {x : UInt8} (h : x ∈ stripslashes b) : x = 0 ∨ x ∈ b := by
  induction b using stripslashes.induct with
  | case1 => exact absurd h List.not_mem_nil
  | case2 => exact absurd h List.not_mem_nil
  | case3 c hc =>
    rw [stripslashes, if_neg hc] at h
    exact Or.inr h
  | case4 c' b ih =>
    rw [stripslashes, if_pos rfl, List.mem_cons] at h
    rcases h with h | h
    · split_ifs at h
      · exact Or.inl h
      · exact Or.inr (by rw [h]; simp)
    · exact (ih h).imp_right fun hmem => List.mem_cons_of_mem _ (List.mem_cons_of_mem _ hmem)
  | case5 c c' b hc ih =>
    rw [stripslashes, if_neg hc, List.mem_cons] at h
    rcases h with rfl | h
    · exact Or.inr (List.mem_cons_self ..)
    · exact (ih h).imp_right fun hmem => List.mem_cons_of_mem _ hmem

/-- **Which ASCII strings are kept.** -/
theorem garde_iff_of_ascii (cs utf8 : Charset) (w : ℕ) {b : Bytes} (hb : ∀ x ∈ b, x < 128) :
    Garde cs utf8 w b ↔ 0x5C ∉ b ∧ ∀ x ∈ b.drop w, x = 0x20 := by
  have hstrip : ∀ x ∈ stripslashes b, x < 128 := by
    intro x hx
    rcases mem_stripslashes hx with rfl | hx
    · decide
    · exact hb x hx
  rw [← same_take_stripslashes_iff, Garde, cs.decode_ascii _ hstrip, utf8.decode_ascii _ hb]
  constructor
  · rintro ⟨t, u, ht, hu, hsame⟩
    cases ht
    cases hu
    exact hsame
  · intro h
    exact ⟨_, _, rfl, rfl, h⟩

/-- A field is found by what was submitted exactly when its column keeps it. -/
theorem egal_iff_garde {srv : Serveur} {cs utf8 : Charset} {w : ℕ} {b : Bytes} {t : Option Text}
    (h : colonne cs (srv.varchar w) (some (stripslashes b)) = some t) :
    egal utf8 t (some b) = true ↔ Garde cs utf8 w b := by
  obtain ⟨u, hu, rfl⟩ := colonne_varchar_eq_some h
  simp only [egal, Option.any_eq_true, decide_eq_true_eq, Garde, hu, Option.some_inj]
  constructor
  · rintro ⟨v, hv, hsame⟩
    exact ⟨u, v, rfl, hv, hsame⟩
  · rintro ⟨_, v, rfl, hv, hsame⟩
    exact ⟨v, hv, hsame⟩

section Credentials

variable {srv : Serveur} {cs : Charset} {Loc : Type*}

/-! ## Whether who has registered can log in -/

/-- The registration was submitted with an e-mail and a password. -/
def Inscription.Soumis (x : Inscription srv cs) (e p : Bytes) : Prop :=
  x.demande.email = .texte e ∧ x.demande.mdp1 = .texte p

/-- The row of a registration is found by its credentials exactly when the columns
keep them. -/
theorem correspond_iff_of_soumis {x : Inscription srv cs} {e p : Bytes} (hx : x.Soumis e p)
    (utf8 : Charset) :
    correspond utf8 (some (.texte e)) (some (.texte p)) x.row = true ↔
      Garde cs utf8 70 e ∧ Garde cs utf8 30 p := by
  obtain ⟨partId, hrow⟩ := x.inscrit
  obtain ⟨-, -, hemail, hmdp, -, -⟩ := ligne_eq_some hrow
  rw [hx.1] at hemail
  rw [hx.2] at hmdp
  rw [correspond, Bool.and_eq_true]
  exact and_congr (egal_iff_garde hemail) (egal_iff_garde hmdp)

/-- A login with an e-mail and a password opens the session of a participant
registered with them, in whatever order the server hands out the rows. -/
def LogsIn (utf8 : Charset) (s : Site srv cs Loc) (e p : Bytes) : Prop :=
  ∀ (ordre : RowOrder Participant) (avant : Session), ∃ x ∈ s.registre, x.Soumis e p ∧
    connexion utf8 true ordre s.bdd.participant avant (formulaire e p) =
      ⟨some x.row, sessionDe utf8 x.row⟩

/-- The participants a login with an e-mail and a password finds. -/
def candidats (utf8 : Charset) (s : Site srv cs Loc) (e p : Bytes) : List Participant :=
  trouves utf8 s.bdd.participant (some (.texte e)) (some (.texte p))

/-- A login with two strings that are not empty. -/
theorem connexion_formulaire {utf8 : Charset} {s : Site srv cs Loc} {e p : Bytes}
    (he : vide (some (.texte e)) = false) (hp : vide (some (.texte p)) = false)
    (ordre : RowOrder Participant) (avant : Session) :
    connexion utf8 true ordre s.bdd.participant avant (formulaire e p) =
      visite utf8 avant (ordre.fetch (candidats utf8 s e p)) := by
  have hcomplete : complete (formulaire e p) = true := by
    rw [complete, lu_email_formulaire, lu_mdp_formulaire, he, hp]
    rfl
  rw [connexion_of_complete (by simp [formulaire]) hcomplete]
  rfl

/-- The page looks at a login that opens a session. -/
theorem LogsIn.vide_eq_false {utf8 : Charset} {s : Site srv cs Loc} {e p : Bytes}
    (h : LogsIn utf8 s e p) :
    vide (some (.texte e)) = false ∧ vide (some (.texte p)) = false := by
  have hcomplete : complete (formulaire e p) = true := by
    by_contra hnot
    obtain ⟨x, -, -, hx⟩ := h RowOrder.table vierge
    rw [connexion_of_not true (Or.inr (Bool.eq_false_of_not_eq_true hnot))] at hx
    have hligne := congrArg Visite.ligne hx
    cases hligne
  rwa [complete, lu_email_formulaire, lu_mdp_formulaire, Bool.and_eq_true, Bool.not_eq_true',
    Bool.not_eq_true'] at hcomplete

/-- Any row found may come first, and the session is that row's. -/
theorem LogsIn.registered {utf8 : Charset} {s : Site srv cs Loc} {e p : Bytes}
    (h : LogsIn utf8 s e p) :
    ∀ row ∈ candidats utf8 s e p, ∃ x ∈ s.registre, x.Soumis e p ∧ x.row = row := by
  intro row hmem
  obtain ⟨he, hp⟩ := h.vide_eq_false
  obtain ⟨x, hx, hsoumis, heq⟩ := h (RowOrder.startWith row) vierge
  rw [connexion_formulaire he hp, RowOrder.fetch_startWith hmem] at heq
  have hligne := congrArg Visite.ligne heq
  exact ⟨x, hx, hsoumis, (Option.some_inj.mp hligne).symm⟩

/-- Somebody registered with the two strings is found by them. -/
theorem LogsIn.exists_mem_candidats {utf8 : Charset} {s : Site srv cs Loc} {e p : Bytes}
    (h : LogsIn utf8 s e p) :
    ∃ x : Inscription srv cs, x.Soumis e p ∧ x.row ∈ candidats utf8 s e p := by
  obtain ⟨he, hp⟩ := h.vide_eq_false
  obtain ⟨x, -, hsoumis, heq⟩ := h RowOrder.table vierge
  rw [connexion_formulaire he hp] at heq
  have hligne := congrArg Visite.ligne heq
  exact ⟨x, hsoumis, RowOrder.mem_of_fetch hligne⟩

/-- **Who can log in.**  A participant who is in the table can log in exactly when
neither string is `empty`, the columns keep both, and nobody else is found by
them. -/
theorem logsIn_iff {utf8 : Charset} {s : Site srv cs Loc} {e p : Bytes} {y : Inscription srv cs}
    (hy : y.Soumis e p) (hrow : y.row ∈ s.bdd.participant) :
    LogsIn utf8 s e p ↔
      vide (some (.texte e)) = false ∧ vide (some (.texte p)) = false ∧
        Garde cs utf8 70 e ∧ Garde cs utf8 30 p ∧
        ∀ row ∈ candidats utf8 s e p, ∃ x ∈ s.registre, x.Soumis e p ∧ x.row = row := by
  constructor
  · intro h
    obtain ⟨he, hp⟩ := h.vide_eq_false
    obtain ⟨x, hsoumis, hmem⟩ := h.exists_mem_candidats
    obtain ⟨hemail, hmdp⟩ :=
      (correspond_iff_of_soumis hsoumis utf8).mp (List.mem_filter.mp hmem).2
    exact ⟨he, hp, hemail, hmdp, h.registered⟩
  · rintro ⟨he, hp, hemail, hmdp, hfound⟩ ordre avant
    have hmem : y.row ∈ candidats utf8 s e p :=
      List.mem_filter.mpr ⟨hrow, (correspond_iff_of_soumis hy utf8).mpr ⟨hemail, hmdp⟩⟩
    obtain ⟨row, hfetch⟩ := RowOrder.exists_fetch (o := ordre) (List.ne_nil_of_mem hmem)
    obtain ⟨x, hx, hsoumis, rfl⟩ := hfound row (RowOrder.mem_of_fetch hfetch)
    refine ⟨x, hx, hsoumis, ?_⟩
    rw [connexion_formulaire he hp, hfetch]
    rfl

/-! ## Whether who logs in has registered -/

/-- The registration stored exactly this e-mail and this password. -/
def Inscription.Exact (x : Inscription srv cs) (e p : Bytes) : Prop :=
  x.demande.email.stripslashes = some e ∧ x.demande.mdp1.stripslashes = some p

/-- A login opens a session only for a participant registered with exactly the
e-mail and the password submitted, and otherwise changes no session variable. -/
def Sound (utf8 : Charset) (s : Site srv cs Loc) (connecte : Bool) (post : Post) (e p : Bytes) :
    Prop :=
  ∀ (ordre : RowOrder Participant) (avant : Session),
    let v := connexion utf8 connecte ordre s.bdd.participant avant post
    (v.ligne ≠ none → ∃ x ∈ s.registre, x.Exact e p ∧ v.session = sessionDe utf8 x.row) ∧
      (v.ligne = none → v.session = avant)

/-- **Whom a login may open a session for.**  Every registration found by the
credentials must show the values of one with exactly these. -/
theorem sound_iff {s : Site srv cs Loc} (hs : s.Inscrits) (utf8 : Charset) (connecte : Bool)
    {post : Post} (hpost : post ≠ []) (e p : Bytes) :
    Sound utf8 s connecte post e p ↔
      connecte = false ∨ complete post = false ∨
        ∀ x ∈ s.registre,
          correspond utf8 (lu post (ascii "email")) (lu post (ascii "mdp")) x.row = true →
            ∃ y ∈ s.registre, y.Exact e p ∧ sessionDe utf8 x.row = sessionDe utf8 y.row := by
  constructor
  · intro h
    by_cases hconnecte : connecte = true
    · by_cases hcomplete : complete post = true
      · refine Or.inr (Or.inr fun x hx hfound => ?_)
        have hmem : x.row ∈ trouves utf8 s.bdd.participant (lu post (ascii "email"))
            (lu post (ascii "mdp")) := by
          refine List.mem_filter.mpr ⟨?_, hfound⟩
          rw [hs]
          exact List.mem_map_of_mem hx
        have hfirst := (h (RowOrder.startWith x.row) vierge).1
        rw [hconnecte, connexion_of_complete hpost hcomplete,
          RowOrder.fetch_startWith hmem] at hfirst
        exact hfirst (by simp [visite])
      · exact Or.inr (Or.inl (Bool.eq_false_of_not_eq_true hcomplete))
    · exact Or.inl (Bool.eq_false_of_not_eq_true hconnecte)
  · intro h ordre avant
    by_cases hboth : connecte = false ∨ complete post = false
    · rw [connexion_of_not connecte hboth]
      exact ⟨fun hopen => absurd rfl hopen, fun _ => rfl⟩
    · obtain ⟨hconnecte, hcomplete⟩ := not_or.mp hboth
      have hfound := (h.resolve_left hconnecte).resolve_left hcomplete
      rw [Bool.eq_true_of_not_eq_false hconnecte,
        connexion_of_complete hpost (Bool.eq_true_of_not_eq_false hcomplete)]
      rcases hfetch : ordre.fetch (trouves utf8 s.bdd.participant (lu post (ascii "email"))
          (lu post (ascii "mdp"))) with _ | row
      · exact ⟨fun hopen => absurd rfl hopen, fun _ => rfl⟩
      · obtain ⟨hmem, hrow⟩ := List.mem_filter.mp (RowOrder.mem_of_fetch hfetch)
        rw [hs] at hmem
        obtain ⟨x, hx, rfl⟩ := List.mem_map.mp hmem
        exact ⟨fun _ => hfound x hx hrow, fun hnone => by cases hnone⟩

variable [DecidableEq Loc] (resolve : Bytes → Loc)

/-- **Registration and login agree.**  After a registration that succeeded, and any
requests after it, its e-mail and password open the session of a participant who
registered with them, exactly when neither is `empty`, the columns keep both, and
nobody else is found by them. -/
theorem credentials_agree (utf8 : Charset) (s : Site srv cs Loc) (r : Etape)
    (y : Inscription srv cs) (hy : insere s r.demande r.issue = some y) (suivantes : List Etape)
    (e p : Bytes) (he : r.demande.email = .texte e) (hp : r.demande.mdp1 = .texte p) :
    LogsIn utf8 (apresTous resolve (apres resolve s r) suivantes) e p ↔
      vide (some (.texte e)) = false ∧ vide (some (.texte p)) = false ∧
        Garde cs utf8 70 e ∧ Garde cs utf8 30 p ∧
        ∀ row ∈ candidats utf8 (apresTous resolve (apres resolve s r) suivantes) e p,
          ∃ x ∈ (apresTous resolve (apres resolve s r) suivantes).registre,
            x.Soumis e p ∧ x.row = row := by
  have hsoumis : y.Soumis e p := by
    rw [Inscription.Soumis, (insere_eq_some hy).1]
    exact ⟨he, hp⟩
  have hrow : y.row ∈ (apres resolve s r).bdd.participant := by
    rw [apres, traitement_of_some resolve hy]
    exact List.mem_append_right _ (List.mem_singleton_self _)
  exact logsIn_iff hsoumis ((subset_apresTous resolve _ suivantes).1 hrow)

end Credentials

/-- A registration with a backslash in the password. -/
def etapeBarre : Etape where
  avant := vierge
  demande := demandeDe "11223344" "nom@site.fr" "mot\\passe" "Prenom" none
  issue := issueDe 1 true

/-- The password is stored without it. -/
def inscriptionBarre : Inscription laxiste Charset.latin1 where
  demande := etapeBarre.demande
  row := ligneDe 1 "11223344" "nom@site.fr" "motpasse" "Prenom" none
  inscrit := ⟨1, by decide⟩

/-- The login with that password fails. -/
theorem not_logsIn_etapeBarre :
    insere siteVide etapeBarre.demande etapeBarre.issue = some inscriptionBarre ∧
      ¬ LogsIn Charset.latin1 (apresTous id (apres id siteVide etapeBarre) [])
        (ascii "nom@site.fr") (ascii "mot\\passe") := by
  refine ⟨rfl, ?_⟩
  have hsoumis : inscriptionBarre.Soumis (ascii "nom@site.fr") (ascii "mot\\passe") := ⟨rfl, rfl⟩
  have hrow : inscriptionBarre.row ∈
      (apresTous id (apres id siteVide etapeBarre) []).bdd.participant := List.mem_singleton_self _
  have hascii : ∀ x ∈ ascii "mot\\passe", x < 128 := by simp [ascii]
  rw [logsIn_iff hsoumis hrow]
  rintro ⟨-, -, -, hgarde, -⟩
  rw [garde_iff_of_ascii _ _ _ hascii] at hgarde
  exact absurd hgarde.1 (by decide)

/-- The condition for that registration. -/
theorem credentials_agree_etapeBarre :
    LogsIn Charset.latin1 (apresTous id (apres id siteVide etapeBarre) [])
        (ascii "nom@site.fr") (ascii "mot\\passe") ↔
      vide (some (.texte (ascii "nom@site.fr"))) = false ∧
        vide (some (.texte (ascii "mot\\passe"))) = false ∧
        Garde Charset.latin1 Charset.latin1 70 (ascii "nom@site.fr") ∧
        Garde Charset.latin1 Charset.latin1 30 (ascii "mot\\passe") ∧
        ∀ row ∈ candidats Charset.latin1 (apresTous id (apres id siteVide etapeBarre) [])
            (ascii "nom@site.fr") (ascii "mot\\passe"),
          ∃ x ∈ (apresTous id (apres id siteVide etapeBarre) []).registre,
            x.Soumis (ascii "nom@site.fr") (ascii "mot\\passe") ∧ x.row = row :=
  credentials_agree id Charset.latin1 siteVide etapeBarre inscriptionBarre rfl []
    (ascii "nom@site.fr") (ascii "mot\\passe") rfl rfl

section Soundness

variable {srv : Serveur} {cs : Charset} {Loc : Type*} [DecidableEq Loc] (resolve : Bytes → Loc)

/-- **Login soundness.**  After any sequence of registrations, a login that is looked
at is sound exactly when every registration its credentials find shows the values of
one with exactly these. -/
theorem login_sound (utf8 : Charset) (fichiers : Loc → Option Bytes) (etapes : List Etape)
    (connecte : Bool) (post : Post) (e p : Bytes)
    (he : post.get (ascii "email") = some (.texte e))
    (hp : post.get (ascii "mdp") = some (.texte p)) :
    let s : Site srv cs Loc := apresTous resolve (Site.neuf fichiers) etapes
    Sound utf8 s connecte post e p ↔
      connecte = false ∨ complete post = false ∨
        ∀ x ∈ s.registre,
          correspond utf8 (lu post (ascii "email")) (lu post (ascii "mdp")) x.row = true →
            ∃ y ∈ s.registre, y.Exact e p ∧ sessionDe utf8 x.row = sessionDe utf8 y.row := by
  have hpost : post ≠ [] := by
    rintro rfl
    cases he
  have hneuf : (Site.neuf fichiers : Site srv cs Loc).Inscrits := rfl
  exact sound_iff (inscrits_apresTous resolve hneuf etapes) utf8 connecte hpost e p

end Soundness

/-- A registration with a capital letter in the password. -/
def etapeMajuscule : Etape where
  avant := vierge
  demande := demandeDe "11223344" "nom@site.fr" "Secret1" "Prenom" none
  issue := issueDe 1 true

/-- Its registration. -/
def inscriptionMajuscule : Inscription laxiste Charset.latin1 where
  demande := etapeMajuscule.demande
  row := ligneDe 1 "11223344" "nom@site.fr" "Secret1" "Prenom" none
  inscrit := ⟨1, by decide⟩

theorem registre_etapeMajuscule :
    (apresTous id (Site.neuf fun _ => none : Site laxiste Charset.latin1 Bytes)
      [etapeMajuscule]).registre = [inscriptionMajuscule] := rfl

/-- The login with a small letter succeeds. -/
theorem not_sound_etapeMajuscule :
    ¬ Sound Charset.latin1
      (apresTous id (Site.neuf fun _ => none : Site laxiste Charset.latin1 Bytes) [etapeMajuscule])
      true (formulaire (ascii "nom@site.fr") (ascii "secret1"))
      (ascii "nom@site.fr") (ascii "secret1") := by
  have hneuf : (Site.neuf fun _ => none : Site laxiste Charset.latin1 Bytes).Inscrits := rfl
  rw [sound_iff (inscrits_apresTous id hneuf _) _ _ (by simp [formulaire]),
    registre_etapeMajuscule]
  rintro (h | h | h)
  · cases h
  · exact absurd h (by decide)
  · obtain ⟨y, hy, hexact, -⟩ := h inscriptionMajuscule (List.mem_singleton_self _) (by decide)
    rw [List.mem_singleton.mp hy] at hexact
    exact absurd hexact.2 (by decide)

/-- The condition for that login. -/
theorem login_sound_etapeMajuscule :
    let s : Site laxiste Charset.latin1 Bytes :=
      apresTous id (Site.neuf fun _ => none) [etapeMajuscule]
    let post := formulaire (ascii "nom@site.fr") (ascii "secret1")
    Sound Charset.latin1 s true post (ascii "nom@site.fr") (ascii "secret1") ↔
      true = false ∨ complete post = false ∨
        ∀ x ∈ s.registre,
          correspond Charset.latin1 (lu post (ascii "email")) (lu post (ascii "mdp")) x.row =
              true →
            ∃ y ∈ s.registre, y.Exact (ascii "nom@site.fr") (ascii "secret1") ∧
              sessionDe Charset.latin1 x.row = sessionDe Charset.latin1 y.row :=
  login_sound id Charset.latin1 (fun _ => none) [etapeMajuscule] true
    (formulaire (ascii "nom@site.fr") (ascii "secret1")) (ascii "nom@site.fr") (ascii "secret1")
    rfl rfl

end Web
end RondeDesFacs
