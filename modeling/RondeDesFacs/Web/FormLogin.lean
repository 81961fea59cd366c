import RondeDesFacs.Web.Formulaire

/-!
# The form and the login

A visitor fills in the form of `inscription.php`, the browser sends it, `traitement.php`
inserts it, and later he types what he has sent into the form of `connexion.php`.  Two things
are settled of this.

* *Whether he can log in* (`form_login`).  What the first form accepts as a password is always
  kept by the column and found again, so all depends on the e-mail: the first form sends none,
  the second asks for one; and the column has room for 70 characters.  The passwords of the
  form agree unless one was put there without a key.
* *Whose session he opens* (`shared_mail`).  Every visitor who leaves the e-mail alone has that
  of `checkEleve`.  So any two of them can get into each other's session, exactly if their
  passwords are the same up to case.
-/

namespace RondeDesFacs
namespace Web

open Query

/-- All that is known of a form that is sent. -/
theorem Saisie.of_envoyable {f : Saisie} (h : f.envoyable = true) :
    (f.valeur .email = [] ∨ emailValide (f.valeur .email) = true) ∧
      motDePasse (f.valeur .mdp1) = true ∧ f.message = [] := by
  simp only [envoyable, Bool.and_eq_true, Bool.or_eq_true, List.isEmpty_iff] at h
  exact ⟨h.1.1.2, h.1.2.2, h.2.2⟩

theorem length_of_motDePasse {t : Text} (h : motDePasse t = true) :
    6 ≤ t.length ∧ t.length ≤ 8 := by
  simp only [motDePasse, Bool.and_eq_true, decide_eq_true_eq] at h
  exact h.1

theorem ne_nil_of_motDePasse {t : Text} (h : motDePasse t = true) : t ≠ [] := by
  rintro rfl
  have hlength := (length_of_motDePasse h).1
  simp at hlength

/-- An e-mail has an `@`. -/
theorem mem_of_emailValide {t : Text} (h : emailValide t = true) : '@' ∈ t := by
  by_contra hnot
  have hnil : t.dropWhile (· ≠ '@') = [] := by
    rw [List.dropWhile_eq_nil_iff]
    intro c hc
    exact decide_eq_true fun heq => hnot (heq ▸ hc)
  rw [emailValide, hnil] at h
  cases h

/-- What `empty` makes of an ordinary text. -/
theorem Ordinaire.vide_eq_false {t : Text} (h : Ordinaire t) (hnil : t ≠ [])
    (hzero : t ≠ ['0']) : vide (some (.texte (octets t))) = false := by
  have hread := latin1_octets h.ascii
  rw [vide, Bool.or_eq_false_iff, decide_eq_false_iff_not, decide_eq_false_iff_not]
  constructor
  · intro heq
    rw [heq] at hread
    exact hnil hread.symm
  · intro heq
    rw [heq] at hread
    exact hzero hread.symm

theorem vide_of_motDePasse {t : Text} (h : motDePasse t = true) :
    vide (some (.texte (octets t))) = false := by
  refine (ordinaire_of_motDePasse h).vide_eq_false (ne_nil_of_motDePasse h) ?_
  rintro rfl
  have hlength := (length_of_motDePasse h).1
  simp at hlength

theorem vide_of_emailValide {t : Text} (h : emailValide t = true) :
    vide (some (.texte (octets t))) = false := by
  have hat := mem_of_emailValide h
  refine (ordinaire_of_emailValide h).vide_eq_false (List.ne_nil_of_mem hat) ?_
  rintro rfl
  exact absurd hat (by decide)

section Site

variable {srv : Serveur} {cs : Charset} {Loc : Type*}

/-- Whether an e-mail and a password find a row, where nothing was lost on the way. -/
theorem correspond_iff_of_ordinaire {x : Inscription srv cs} {e p e' p' : Text}
    (hx : x.Soumis (octets e) (octets p)) (he : Ordinaire e) (hp : Ordinaire p)
    (he' : Ordinaire e') (hp' : Ordinaire p') (helen : e.length ≤ 70) (hplen : p.length ≤ 30)
    (utf8 : Charset) :
    correspond utf8 (some (.texte (octets e'))) (some (.texte (octets p'))) x.row = true ↔
      SameText e e' ∧ SameText p p' := by
  have hcolonne : ∀ {w : ℕ} {t t' : Text} {u : Option Text}, Ordinaire t → Ordinaire t' →
      t.length ≤ w → colonne cs (srv.varchar w) (some (stripslashes (octets t))) = some u →
      (egal utf8 u (some (octets t')) = true ↔ SameText t t') := by
    intro w t t' u ht ht' hw hu
    obtain ⟨v, hv, rfl⟩ := colonne_varchar_eq_some hu
    have hslash : 0x5C ∉ octets t := fun hmem => (ht.mem_octets hmem).2.1 rfl
    rw [stripslashes_of_notMem hslash, cs.decode_ascii _ fun c hc => (ht.mem_octets hc).1,
      latin1_octets ht.ascii] at hv
    obtain rfl := Option.some_inj.mp hv
    rw [egal, utf8.decode_ascii _ fun c hc => (ht'.mem_octets hc).1, latin1_octets ht'.ascii,
      List.take_of_length_le hw, Option.any_some, decide_eq_true_eq]
  obtain ⟨partId, hrow⟩ := x.inscrit
  obtain ⟨-, -, hemail, hmdp, -, -⟩ := ligne_eq_some hrow
  rw [hx.1] at hemail
  rw [hx.2] at hmdp
  rw [correspond, Bool.and_eq_true]
  exact and_congr (hcolonne he he' helen hemail) (hcolonne hp hp' hplen hmdp)

/-- The credentials of a form that is sent. -/
theorem soumis_of_insere {s : Site srv cs Loc} {f : Saisie} {o : Issue} {y : Inscription srv cs}
    (h : insere s f.demande o = some y) :
    y.Soumis (octets (f.valeur .email)) (octets (f.valeur .mdp1)) := by
  rw [Inscription.Soumis, (insere_eq_some h).1]
  exact ⟨rfl, rfl⟩

/-- **Who can log in after a form that was sent.** -/
theorem logsIn_iff_of_envoyable {s : Site srv cs Loc} {f : Saisie} {y : Inscription srv cs}
    (hf : f.envoyable = true) (hy : y.Soumis (octets (f.valeur .email)) (octets (f.valeur .mdp1)))
    (hrow : y.row ∈ s.bdd.participant) (utf8 : Charset) :
    connexionEnvoyable (f.valeur .email) (f.valeur .mdp1) = true ∧
        LogsIn utf8 s (octets (f.valeur .email)) (octets (f.valeur .mdp1)) ↔
      f.valeur .email ≠ [] ∧ (f.valeur .email).length ≤ 70 ∧
        ∀ row ∈ candidats utf8 s (octets (f.valeur .email)) (octets (f.valeur .mdp1)),
          ∃ x ∈ s.registre, x.Soumis (octets (f.valeur .email)) (octets (f.valeur .mdp1)) ∧
            x.row = row := by
  obtain ⟨hemail, hmdp, -⟩ := Saisie.of_envoyable hf
  generalize f.valeur .email = e at *
  generalize f.valeur .mdp1 = p at *
  have hgarde : Garde cs utf8 30 (octets p) := by
    refine ((ordinaire_of_motDePasse hmdp).garde_iff cs utf8 30).mpr ?_
    exact (length_of_motDePasse hmdp).2.trans (by decide)
  rw [logsIn_iff hy hrow]
  rcases eq_or_ne e [] with rfl | hne
  · refine iff_of_false ?_ fun h => h.1 rfl
    exact fun h => Bool.false_ne_true h.1
  · have hvalide := hemail.resolve_left hne
    have hconnexion : connexionEnvoyable e p = true := by
      simp [connexionEnvoyable, hvalide, hne, ne_nil_of_motDePasse hmdp]
    rw [(ordinaire_of_emailValide hvalide).garde_iff cs utf8 70]
    constructor
    · rintro ⟨-, -, -, hlength, -, hfound⟩
      exact ⟨hne, hlength, hfound⟩
    · rintro ⟨-, hlength, hfound⟩
      exact ⟨hconnexion, vide_of_emailValide hvalide, vide_of_motDePasse hmdp, hlength, hgarde,
        hfound⟩

/-- Whose session a login may open, where no row comes first of itself. -/
theorem exists_connexion_iff {s : Site srv cs Loc} {e p : Bytes} {row : Participant}
    (he : vide (some (.texte e)) = false) (hp : vide (some (.texte p)) = false) (utf8 : Charset) :
    (∃ ordre : RowOrder Participant, ∀ avant,
        connexion utf8 true ordre s.bdd.participant avant (formulaire e p) =
          ⟨some row, sessionDe utf8 row⟩) ↔
      row ∈ candidats utf8 s e p := by
  constructor
  · rintro ⟨ordre, h⟩
    have hligne := congrArg Visite.ligne (h vierge)
    rw [connexion_formulaire he hp] at hligne
    exact RowOrder.mem_of_fetch hligne
  · intro hmem
    refine ⟨RowOrder.startWith row, fun avant => ?_⟩
    rw [connexion_formulaire he hp, RowOrder.fetch_startWith hmem]
    rfl

variable [DecidableEq Loc] (resolve : Bytes → Loc)

/-- Who was inserted stays in the table. -/
theorem row_mem_apresTous {s : Site srv cs Loc} {e : Etape} {y : Inscription srv cs}
    (h : insere s e.demande e.issue = some y) (suite : List Etape) :
    y.row ∈ (apresTous resolve (apres resolve s e) suite).bdd.participant := by
  have hrow : y.row ∈ (apres resolve s e).bdd.participant := by
    rw [apres, traitement_of_some resolve h]
    exact List.mem_append_right _ (List.mem_singleton_self _)
  exact (subset_apresTous resolve _ suite).1 hrow

/-- **From one form to the other.**  Whatever a visitor does in the form, if it is sent and
inserted, then after any further requests the form of the login takes his e-mail and password
and opens the session of somebody registered with them, exactly if he has an e-mail, of at most
70 characters, and nobody else is found by them.  And if no password was put in without a key,
the two he has sent are the same. -/
theorem form_login (utf8 : Charset) (run : List Saisir) (s : Site srv cs Loc) (avant : Session)
    (o : Issue) (y : Inscription srv cs) (suite : List Etape)
    (henvoi : (Saisie.neuve.apresTout run).envoyable = true)
    (hy : insere s (Saisie.neuve.apresTout run).demande o = some y) :
    let f := Saisie.neuve.apresTout run
    let s' := apresTous resolve (apres resolve s ⟨avant, f.demande, o⟩) suite
    let e := octets (f.valeur .email)
    let p := octets (f.valeur .mdp1)
    (connexionEnvoyable (f.valeur .email) (f.valeur .mdp1) = true ∧ LogsIn utf8 s' e p ↔
        f.valeur .email ≠ [] ∧ (f.valeur .email).length ≤ 70 ∧
          ∀ row ∈ candidats utf8 s' e p, ∃ x ∈ s'.registre, x.Soumis e p ∧ x.row = row) ∧
      ((∀ t, .colle .mdp1 t ∉ run ∧ .colle .mdp2 t ∉ run) →
        f.valeur .mdp1 = f.valeur .mdp2) := by
  intro f s' e p
  have hrow : y.row ∈ s'.bdd.participant :=
    row_mem_apresTous resolve (e := ⟨avant, f.demande, o⟩) hy suite
  refine ⟨logsIn_iff_of_envoyable henvoi (soumis_of_insere hy) hrow utf8, fun hrun => ?_⟩
  have hneuve : Saisie.neuve.Controlee := iff_of_true rfl rfl
  exact (hneuve.apresTout hrun).mp (Saisie.of_envoyable henvoi).2.2

end Site

/-- A visitor who types his number and twice a password. -/
def visiteur (mdp : String) : List Saisir :=
  [.tape "11223344".toList, .va (some .mdp1), .tape mdp.toList, .va (some .mdp2),
    .tape mdp.toList]

/-- His form. -/
def saisieDe (mdp : String) : Saisie := Saisie.neuve.apresTout (visiteur mdp)

/-- His registration. -/
def inscriptionSecret : Inscription laxiste Charset.latin1 :=
  (insere siteVide (saisieDe "secret_1").demande (issueDe 1 true)).get (by decide)

/-- That visitor can log in. -/
theorem form_login_visiteur :
    connexionEnvoyable ((saisieDe "secret_1").valeur .email)
        ((saisieDe "secret_1").valeur .mdp1) = true ∧
      LogsIn Charset.latin1
        (apresTous id (apres id siteVide ⟨vierge, (saisieDe "secret_1").demande, issueDe 1 true⟩) [])
        (octets ((saisieDe "secret_1").valeur .email))
        (octets ((saisieDe "secret_1").valeur .mdp1)) := by
  have hy : insere siteVide (saisieDe "secret_1").demande (issueDe 1 true) =
      some inscriptionSecret := (Option.some_get _).symm
  refine (form_login id Charset.latin1 (visiteur "secret_1") siteVide vierge (issueDe 1 true)
    inscriptionSecret [] (by decide) hy).1.mpr ⟨by decide, by decide, fun row hrow => ?_⟩
  have hone : row ∈ [inscriptionSecret.row] := (List.mem_filter.mp hrow).1
  exact ⟨inscriptionSecret, List.mem_singleton_self _, soumis_of_insere hy,
    (List.mem_singleton.mp hone).symm⟩

/-! ## The e-mail of `checkEleve` -/

theorem ordinaire_mail : Ordinaire mail := ordinaire_of_emailValide (by decide)

section Partage

variable {srv : Serveur} {cs : Charset} {Loc : Type*}

/-- A participant registered with that e-mail and a password of the form. -/
theorem mem_candidats_mail_iff {s : Site srv cs Loc} {y : Inscription srv cs} {p p' : Text}
    (hy : y.Soumis (octets mail) (octets p)) (hrow : y.row ∈ s.bdd.participant)
    (hp : motDePasse p = true) (hp' : motDePasse p' = true) (utf8 : Charset) :
    y.row ∈ candidats utf8 s (octets mail) (octets p') ↔ SameText p p' := by
  have hmail : SameText mail mail := rfl
  have hlength : p.length ≤ 30 := (length_of_motDePasse hp).2.trans (by decide)
  rw [candidats, trouves, List.mem_filter, and_iff_right hrow,
    correspond_iff_of_ordinaire hy ordinaire_mail (ordinaire_of_motDePasse hp) ordinaire_mail
      (ordinaire_of_motDePasse hp') (by decide) hlength, and_iff_right hmail]

variable [DecidableEq Loc] (resolve : Bytes → Loc)

/-- **Visitors who leave the e-mail alone share their sessions.**  Two visitors do what they
like in the form, except that they do not go to the e-mail and have no e-mail or password put
in.  Their forms are sent and inserted, one after the other, with any requests between them and
after them.  Then both have the e-mail of `checkEleve`, and each may get the session of the
other, by his own e-mail and password, exactly if the passwords are the same up to case. -/
theorem shared_mail (utf8 : Charset) (run₁ run₂ : List Saisir) (s : Site srv cs Loc)
    (avant₁ avant₂ : Session) (o₁ o₂ : Issue) (y₁ y₂ : Inscription srv cs)
    (entre suite : List Etape) (hrun₁ : ∀ g ∈ run₁, Saisie.Delaisse g)
    (hrun₂ : ∀ g ∈ run₂, Saisie.Delaisse g)
    (henvoi₁ : (Saisie.neuve.apresTout run₁).envoyable = true)
    (henvoi₂ : (Saisie.neuve.apresTout run₂).envoyable = true)
    (hy₁ : insere s (Saisie.neuve.apresTout run₁).demande o₁ = some y₁)
    (hy₂ : insere (apresTous resolve
      (apres resolve s ⟨avant₁, (Saisie.neuve.apresTout run₁).demande, o₁⟩) entre)
      (Saisie.neuve.apresTout run₂).demande o₂ = some y₂) :
    let f₁ := Saisie.neuve.apresTout run₁
    let f₂ := Saisie.neuve.apresTout run₂
    let s₁ := apresTous resolve (apres resolve s ⟨avant₁, f₁.demande, o₁⟩) entre
    let s₂ := apresTous resolve (apres resolve s₁ ⟨avant₂, f₂.demande, o₂⟩) suite
    let peut := fun (f : Saisie) (row : Participant) =>
      ∃ ordre : RowOrder Participant, ∀ avant,
        connexion utf8 true ordre s₂.bdd.participant avant
          (formulaire (octets (f.valeur .email)) (octets (f.valeur .mdp1))) =
            ⟨some row, sessionDe utf8 row⟩
    f₁.valeur .email = mail ∧ f₂.valeur .email = mail ∧
      (peut f₁ y₂.row ↔ SameText (f₁.valeur .mdp1) (f₂.valeur .mdp1)) ∧
      (peut f₂ y₁.row ↔ SameText (f₁.valeur .mdp1) (f₂.valeur .mdp1)) := by
  intro f₁ f₂ s₁ s₂ peut
  have hmdp₁ := (Saisie.of_envoyable henvoi₁).2.1
  have hmdp₂ := (Saisie.of_envoyable henvoi₂).2.1
  have hmail₁ : f₁.valeur .email = mail :=
    Saisie.email_apresTout hrun₁ (ne_nil_of_motDePasse hmdp₁)
  have hmail₂ : f₂.valeur .email = mail :=
    Saisie.email_apresTout hrun₂ (ne_nil_of_motDePasse hmdp₂)
  have hsoumis₁ : y₁.Soumis (octets (f₁.valeur .email)) (octets (f₁.valeur .mdp1)) :=
    soumis_of_insere hy₁
  have hsoumis₂ : y₂.Soumis (octets (f₂.valeur .email)) (octets (f₂.valeur .mdp1)) :=
    soumis_of_insere hy₂
  have hrow₂ : y₂.row ∈ s₂.bdd.participant :=
    row_mem_apresTous resolve (e := ⟨avant₂, f₂.demande, o₂⟩) hy₂ suite
  have hrow₁ : y₁.row ∈ s₂.bdd.participant := by
    have hbefore := row_mem_apresTous resolve (e := ⟨avant₁, f₁.demande, o₁⟩) hy₁ entre
    exact (subset_apresTous resolve _ suite).1 ((subset_apres resolve s₁ _).1 hbefore)
  have hvide : vide (some (.texte (octets mail))) = false := vide_of_emailValide (by decide)
  refine ⟨hmail₁, hmail₂, ?_, ?_⟩
  · show (∃ ordre : RowOrder Participant, ∀ avant, connexion utf8 true ordre s₂.bdd.participant
      avant (formulaire (octets (f₁.valeur .email)) _) = _) ↔ _
    rw [hmail₁, exists_connexion_iff hvide (vide_of_motDePasse hmdp₁),
      mem_candidats_mail_iff (hmail₂ ▸ hsoumis₂) hrow₂ hmdp₂ hmdp₁]
    exact ⟨Collation.Same.symm, Collation.Same.symm⟩
  · show (∃ ordre : RowOrder Participant, ∀ avant, connexion utf8 true ordre s₂.bdd.participant
      avant (formulaire (octets (f₂.valeur .email)) _) = _) ↔ _
    rw [hmail₂, exists_connexion_iff hvide (vide_of_motDePasse hmdp₂),
      mem_candidats_mail_iff (hmail₁ ▸ hsoumis₁) hrow₁ hmdp₁ hmdp₂]

end Partage

/-- The registration of another one after him, with a capital letter. -/
def inscriptionMajuscules : Inscription laxiste Charset.latin1 :=
  (insere (apresTous id
    (apres id siteVide ⟨vierge, (saisieDe "secret_1").demande, issueDe 1 true⟩) [])
    (saisieDe "Secret_1").demande (issueDe 2 true)).get (by decide)

theorem delaisse_visiteur (mdp : String) : ∀ g ∈ visiteur mdp, Saisie.Delaisse g := by
  intro g hg
  simp only [visiteur, List.mem_cons, List.not_mem_nil, or_false] at hg
  rcases hg with rfl | rfl | rfl | rfl | rfl <;> simp [Saisie.Delaisse]

/-- The first may get the session of the second. -/
theorem shared_mail_visiteur :
    ∃ ordre : RowOrder Participant, ∀ avant,
      connexion Charset.latin1 true ordre
        (apresTous id (apres id (apresTous id
          (apres id siteVide ⟨vierge, (saisieDe "secret_1").demande, issueDe 1 true⟩) [])
          ⟨vierge, (saisieDe "Secret_1").demande, issueDe 2 true⟩) []).bdd.participant avant
        (formulaire (octets ((saisieDe "secret_1").valeur .email))
          (octets ((saisieDe "secret_1").valeur .mdp1))) =
        ⟨some inscriptionMajuscules.row,
          sessionDe Charset.latin1 inscriptionMajuscules.row⟩ :=
  (shared_mail id Charset.latin1 (visiteur "secret_1") (visiteur "Secret_1") siteVide vierge vierge
    (issueDe 1 true) (issueDe 2 true) inscriptionSecret inscriptionMajuscules [] []
    (delaisse_visiteur _) (delaisse_visiteur _) (by decide) (by decide)
    (Option.some_get _).symm (Option.some_get _).symm).2.2.1.mpr (by decide)

end Web
end RondeDesFacs
