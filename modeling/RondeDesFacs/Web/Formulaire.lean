import RondeDesFacs.Library.DistinguishedName
import RondeDesFacs.Library.Separators
import RondeDesFacs.Web.Credentials

/-!
# The form of `inscription.php`

What reaches `traitement.php` from a visitor has been through his browser first.  The form
asks for a number, two passwords and an e-mail, each with its own condition, and `custom.js`
takes part in two places.

* `validateMdp2` runs at every key in one of the two passwords, and leaves a message on the
  second one if they differ.  A form with a message is not sent.
* `checkEleve` runs when the visitor leaves the number, where the form has put him, and
  writes an e-mail, a name and a department of its own into the form, over what is there.

A field may also change without a key: by the mouse, or by the browser itself (`colle`).
The first of the two `pattern` attributes of the password is the one that counts.

The conditions keep out what the columns would not keep (`Ordinaire`), which is what the login
needs; how the two meet is in `FormLogin`.
-/

namespace RondeDesFacs
namespace Web

/-! ## The form -/

/-- The text fields. -/
inductive Champ where
  | numEtudiant
  | email
  | mdp1
  | mdp2
  | nom
  | prenom
  | origine
  deriving DecidableEq

/-- The radio buttons `sexe`. -/
inductive Sexe where
  | homme
  | femme

/-- The radio buttons `statut`. -/
inductive Statut where
  | eleve
  | professeur

/-- The radio buttons `type`. -/
inductive Categorie where
  | coureur
  | marcheur

def Sexe.value : Sexe → Text
  | homme => "H".toList
  | femme => "F".toList

def Statut.value : Statut → Text
  | eleve => "E".toList
  | professeur => "P".toList

def Categorie.value : Categorie → Text
  | coureur => "C".toList
  | marcheur => "M".toList

/-- The other controls. -/
structure Autres where
  sexe : Sexe
  birthdate : Text
  statut : Statut
  type : Categorie
  nationalite : Text
  avatar : Option Fichier
  certificat : Option Fichier

/-- The form in the browser: its fields, the field the visitor is in, the message
`setCustomValidity` has left on `mdp2`, and the rest. -/
structure Saisie where
  valeur : Champ → Text
  focus : Option Champ
  message : Text
  autres : Autres

/-- The form as it is loaded. -/
def Saisie.neuve : Saisie where
  valeur _ := []
  focus := some .numEtudiant
  message := []
  autres := ⟨.homme, [], .eleve, .coureur, "France".toList, none, none⟩

/-- White space in ASCII. -/
def blanc (c : Char) : Bool := c = ' ' || c = '\t' || c = '\n' || c = '\r' || c = '\x0c'

/-- What a field makes of a value: a line, and of an e-mail what is between the white
space. -/
def Champ.assainit (c : Champ) (t : Text) : Text :=
  let ligne := t.filter fun x => x ≠ '\n' && x ≠ '\r'
  if c = .email then (ligne.dropWhile blanc).rdropWhile blanc else ligne

/-- `document.getElementById(c).value = t`. -/
def Saisie.ecrit (f : Saisie) (c : Champ) (t : Text) : Saisie :=
  { f with valeur := Function.update f.valeur c (c.assainit t) }

/-! ## The script -/

/-- `validateMdp2`. -/
def validateMdp2 (f : Saisie) : Saisie :=
  { f with message :=
      if f.valeur .mdp1 = f.valeur .mdp2 then []
      else "Les mots de passes doivent être égaux.".toList }

/-- The e-mail of `checkEleve`. -/
def mail : Text := "mail@mail.fr".toList

/-- `checkEleve`. -/
def checkEleve (f : Saisie) : Saisie :=
  (((f.ecrit .email mail).ecrit .origine "B".toList).ecrit .nom "Paul".toList).ecrit .prenom
    "Pierre".toList

/-- What a visitor does: goes to a field, or to none; types until the field he is in has a
value; has a value put into a field without a key; or chooses. -/
inductive Saisir where
  | va (c : Option Champ)
  | tape (t : Text)
  | colle (c : Champ) (t : Text)
  | choisit (a : Autres)

/-- The form afterwards. -/
def Saisie.apres (f : Saisie) : Saisir → Saisie
  | .va c =>
    let f' := if f.focus = some .numEtudiant ∧ c ≠ some .numEtudiant then checkEleve f else f
    { f' with focus := c }
  | .tape t =>
    match f.focus with
    | none => f
    | some c =>
      if c = .mdp1 ∨ c = .mdp2 then validateMdp2 (f.ecrit c t) else f.ecrit c t
  | .colle c t => f.ecrit c t
  | .choisit a => { f with autres := a }

/-- The form after a run. -/
def Saisie.apresTout (f : Saisie) (run : List Saisir) : Saisie := run.foldl Saisie.apres f

/-! ## What the browser sends -/

/-- `pattern="[A-Za-z0-9_]{6,8}"`. -/
def motDePasse (t : Text) : Bool :=
  decide (6 ≤ t.length) && decide (t.length ≤ 8) && t.all fun c => c.isAlphanum || c = '_'

/-- The characters of an e-mail before the `@`. -/
def atome (c : Char) : Bool :=
  c.isAlphanum || (".!#$%&\x27*+/=?^_\x60\x7b|\x7d~-".toList).contains c

/-- One label of a domain: letters, digits and hyphens, at most 63, no hyphen at the ends. -/
def etiquette (t : Text) : Bool :=
  decide (1 ≤ t.length) && decide (t.length ≤ 63) && t.all (fun c => c.isAlphanum || c = '-') &&
    t.head? != some '-' && t.getLast? != some '-'

/-- A valid e-mail address, as `type="email"` has it. -/
def emailValide (t : Text) : Bool :=
  match t.dropWhile (· ≠ '@') with
  | [] => false
  | _ :: domaine =>
    let nom := t.takeWhile (· ≠ '@')
    !nom.isEmpty && nom.all atome && (domaine.splitOn '.').all etiquette

/-- Whether the browser sends the form. -/
def Saisie.envoyable (f : Saisie) : Bool :=
  !(f.valeur .numEtudiant).isEmpty &&
    ((f.valeur .email).isEmpty || emailValide (f.valeur .email)) &&
    (!(f.valeur .mdp1).isEmpty && motDePasse (f.valeur .mdp1)) &&
    (!(f.valeur .mdp2).isEmpty && f.message.isEmpty)

/-- The bytes of a text, in the character set of the page. -/
def octets (t : Text) : Bytes := DistinguishedName.utf8 t

/-- The request the form makes. -/
def Saisie.demande (f : Saisie) : Demande where
  numEtudiant := .texte (octets (f.valeur .numEtudiant))
  email := .texte (octets (f.valeur .email))
  mdp1 := .texte (octets (f.valeur .mdp1))
  nom := .texte (octets (f.valeur .nom))
  prenom := .texte (octets (f.valeur .prenom))
  sexe := some (.texte (octets f.autres.sexe.value))
  birthdate := .texte (octets f.autres.birthdate)
  nationalite := .texte (octets f.autres.nationalite)
  origine := .texte (octets (f.valeur .origine))
  statut := .texte (octets f.autres.statut.value)
  type := .texte (octets f.autres.type.value)
  avatar := f.autres.avatar
  certificat := f.autres.certificat

/-- Whether the browser sends the form of `connexion.php`. -/
def connexionEnvoyable (email mdp : Text) : Bool :=
  !email.isEmpty && emailValide email && !mdp.isEmpty

/-! ## What the conditions say of the characters -/

/-- ASCII, and neither a backslash nor a space. -/
def Ordinaire (t : Text) : Prop := ∀ c ∈ t, c.toNat < 128 ∧ c.toNat ≠ 0x5C ∧ c.toNat ≠ 0x20

theorem toNat_of_isAlphanum {c : Char} (h : c.isAlphanum = true) :
    c.toNat < 128 ∧ c.toNat ≠ 0x5C ∧ c.toNat ≠ 0x20 := by
  have hopen : ((decide ('A'.val ≤ c.val ∧ c.val ≤ 'Z'.val) ||
      (decide ('a'.val ≤ c.val) && decide (c.val ≤ 'z'.val))) ||
      (decide ('0'.val ≤ c.val) && decide (c.val ≤ '9'.val))) = true := h
  simp only [Bool.or_eq_true, Bool.and_eq_true, decide_eq_true_eq, UInt32.le_iff_toNat_le] at hopen
  have hranges : ((65 ≤ c.toNat ∧ c.toNat ≤ 90) ∨ (97 ≤ c.toNat ∧ c.toNat ≤ 122)) ∨
      (48 ≤ c.toNat ∧ c.toNat ≤ 57) := hopen
  omega

theorem ordinaire_of_motDePasse {t : Text} (h : motDePasse t = true) : Ordinaire t := by
  intro c hc
  simp only [motDePasse, Bool.and_eq_true, List.all_eq_true, Bool.or_eq_true,
    decide_eq_true_eq] at h
  rcases h.2 c hc with halnum | rfl
  · exact toNat_of_isAlphanum halnum
  · decide

theorem toNat_of_atome {c : Char} (h : atome c = true) :
    c.toNat < 128 ∧ c.toNat ≠ 0x5C ∧ c.toNat ≠ 0x20 := by
  rcases Bool.or_eq_true_iff.mp h with halnum | hmem
  · exact toNat_of_isAlphanum halnum
  · have hall : (".!#$%&\x27*+/=?^_\x60\x7b|\x7d~-".toList.all fun x =>
        decide (x.toNat < 128 ∧ x.toNat ≠ 0x5C ∧ x.toNat ≠ 0x20)) = true := rfl
    exact of_decide_eq_true (List.all_eq_true.mp hall c (List.contains_iff_mem.mp hmem))

theorem ordinaire_of_etiquettes {t : Text} (h : (t.splitOn '.').all etiquette = true) :
    Ordinaire t := by
  intro c hc
  have hsplit : ['.'].intercalate (t.splitOn '.') = t := List.intercalate_splitOn '.'
  rw [← hsplit] at hc
  rcases Separators.of_mem_intercalate hc with hdot | ⟨l, hl, hcl⟩
  · obtain rfl := List.mem_singleton.mp hdot
    decide
  · have hlabel := List.all_eq_true.mp h l hl
    simp only [etiquette, Bool.and_eq_true, List.all_eq_true, Bool.or_eq_true,
      decide_eq_true_eq] at hlabel
    rcases hlabel.1.1.2 c hcl with halnum | rfl
    · exact toNat_of_isAlphanum halnum
    · decide

theorem ordinaire_of_emailValide {t : Text} (h : emailValide t = true) : Ordinaire t := by
  have hparts : t.takeWhile (· ≠ '@') ++ t.dropWhile (· ≠ '@') = t := List.takeWhile_append_dropWhile
  rw [emailValide] at h
  rcases hdrop : t.dropWhile (· ≠ '@') with _ | ⟨a, domaine⟩
  · rw [hdrop] at h
    cases h
  · have hat : a = '@' := by
      have hhead := List.head?_dropWhile_not (· ≠ '@') t
      rw [hdrop] at hhead
      simpa using hhead
    rw [hdrop] at h hparts
    simp only [Bool.and_eq_true, List.all_eq_true] at h
    intro c hc
    rw [← hparts, List.mem_append, List.mem_cons] at hc
    rcases hc with hnom | rfl | hdomaine
    · exact toNat_of_atome (h.1.2 c hnom)
    · rw [hat]
      decide
    · exact ordinaire_of_etiquettes (List.all_eq_true.mpr h.2) c hdomaine

/-! ## The bytes of an ordinary text -/

theorem octets_of_ascii {t : Text} (h : ∀ c ∈ t, c.toNat < 128) :
    octets t = t.map fun c => UInt8.ofNat c.toNat := by
  rw [octets, DistinguishedName.utf8, List.map_eq_flatMap]
  refine List.flatMap_congr fun c hc => ?_
  have hlt : c.val.toNat < 128 := h c hc
  have hsize : c.utf8Size = 1 := by
    rw [Char.utf8Size, if_pos]
    rw [UInt32.le_iff_toNat_le]
    exact Nat.le_of_lt_succ hlt
  rw [String.utf8EncodeChar_eq_singleton hsize]
  rfl

/-- Reading the bytes one by one gives the text back. -/
theorem latin1_octets {t : Text} (h : ∀ c ∈ t, c.toNat < 128) : latin1 (octets t) = t := by
  rw [octets_of_ascii h, latin1, List.map_map]
  conv_rhs => rw [← List.map_id t]
  refine List.map_congr_left fun c hc => ?_
  have hlt : (UInt8.ofNat c.toNat).toNat = c.toNat := by
    rw [UInt8.toNat_ofNat', Nat.mod_eq_of_lt ((h c hc).trans (by decide))]
  show Char.ofNat (UInt8.ofNat c.toNat).toNat = c
  rw [hlt]
  exact Char.ofNat_toNat c

namespace Ordinaire

variable {t : Text}

theorem ascii (h : Ordinaire t) : ∀ c ∈ t, c.toNat < 128 := fun c hc => (h c hc).1

/-- The bytes of an ordinary text. -/
theorem mem_octets (h : Ordinaire t) {x : UInt8} (hx : x ∈ octets t) :
    x < 128 ∧ x ≠ 0x5C ∧ x ≠ 0x20 := by
  rw [octets_of_ascii h.ascii] at hx
  obtain ⟨c, hc, rfl⟩ := List.mem_map.mp hx
  obtain ⟨hlt, hslash, hspace⟩ := h c hc
  have hnat : (UInt8.ofNat c.toNat).toNat = c.toNat := by
    rw [UInt8.toNat_ofNat', Nat.mod_eq_of_lt (hlt.trans (by decide))]
  refine ⟨?_, fun heq => hslash ?_, fun heq => hspace ?_⟩
  · rw [UInt8.lt_iff_toNat_lt, hnat]
    exact hlt
  · rw [← hnat, heq]
    rfl
  · rw [← hnat, heq]
    rfl

theorem length_octets (h : Ordinaire t) : (octets t).length = t.length := by
  rw [octets_of_ascii h.ascii, List.length_map]

/-- **A column keeps an ordinary text** exactly if it is wide enough. -/
theorem garde_iff (h : Ordinaire t) (cs utf8 : Charset) (w : ℕ) :
    Garde cs utf8 w (octets t) ↔ t.length ≤ w := by
  rw [garde_iff_of_ascii cs utf8 w fun x hx => (h.mem_octets hx).1, ← h.length_octets,
    ← List.drop_eq_nil_iff]
  constructor
  · rintro ⟨-, hspaces⟩
    rw [List.eq_nil_iff_forall_not_mem]
    intro x hx
    exact (h.mem_octets (List.mem_of_mem_drop hx)).2.2 (hspaces x hx)
  · intro hnil
    refine ⟨fun hmem => (h.mem_octets hmem).2.1 rfl, fun x hx => ?_⟩
    rw [hnil] at hx
    exact absurd hx List.not_mem_nil

end Ordinaire

/-! ## Runs -/

namespace Saisie

variable {f : Saisie} {run : List Saisir}

theorem valeur_ecrit_of_ne {c c' : Champ} (h : c' ≠ c) (t : Text) :
    (f.ecrit c t).valeur c' = f.valeur c' := Function.update_of_ne h _ _

/-- The fields `checkEleve` leaves alone. -/
theorem valeur_checkEleve {c : Champ} (h : c = .numEtudiant ∨ c = .mdp1 ∨ c = .mdp2) :
    (checkEleve f).valeur c = f.valeur c := by
  rcases h with rfl | rfl | rfl <;> rfl

/-- The e-mail it leaves. -/
theorem email_checkEleve (f : Saisie) : (checkEleve f).valeur .email = mail := by
  show Champ.email.assainit mail = mail
  decide

/-- The message on the second password is there exactly if the passwords differ. -/
def Controlee (f : Saisie) : Prop := f.message = [] ↔ f.valeur .mdp1 = f.valeur .mdp2

theorem controlee_validateMdp2 (f : Saisie) : (validateMdp2 f).Controlee := by
  show (if f.valeur .mdp1 = f.valeur .mdp2 then [] else _) = [] ↔ f.valeur .mdp1 = f.valeur .mdp2
  split_ifs with h
  · exact iff_of_true rfl h
  · exact iff_of_false (by simp) h

/-- What neither touches the message nor the passwords. -/
theorem Controlee.of_eq {f' : Saisie} (h : f.Controlee) (hmessage : f'.message = f.message)
    (hmdp1 : f'.valeur .mdp1 = f.valeur .mdp1) (hmdp2 : f'.valeur .mdp2 = f.valeur .mdp2) :
    f'.Controlee := by
  rw [Controlee, hmessage, hmdp1, hmdp2]
  exact h

theorem Controlee.ecrit (h : f.Controlee) {c : Champ} (hc : c ≠ .mdp1 ∧ c ≠ .mdp2) (t : Text) :
    (f.ecrit c t).Controlee :=
  h.of_eq rfl (valeur_ecrit_of_ne hc.1.symm t) (valeur_ecrit_of_ne hc.2.symm t)

/-- A step keeps the message right, unless it puts a password there without a key. -/
theorem Controlee.apres (h : f.Controlee) {g : Saisir}
    (hg : ∀ t, g ≠ .colle .mdp1 t ∧ g ≠ .colle .mdp2 t) : (f.apres g).Controlee := by
  cases g with
  | va c =>
    rw [Saisie.apres]
    split_ifs
    · exact h.of_eq rfl (valeur_checkEleve (Or.inr (Or.inl rfl)))
        (valeur_checkEleve (Or.inr (Or.inr rfl)))
    · exact h
  | tape t =>
    rw [Saisie.apres]
    rcases hfocus : f.focus with _ | c
    · exact h
    · dsimp only
      split_ifs with hc
      · exact controlee_validateMdp2 _
      · exact h.ecrit (not_or.mp hc) t
  | colle c t =>
    refine h.ecrit ⟨?_, ?_⟩ t
    · rintro rfl
      exact (hg t).1 rfl
    · rintro rfl
      exact (hg t).2 rfl
  | choisit a => exact h

/-- The message is right after a run that puts no password there without a key. -/
theorem Controlee.apresTout (h : f.Controlee)
    (hrun : ∀ t, .colle .mdp1 t ∉ run ∧ .colle .mdp2 t ∉ run) : (f.apresTout run).Controlee := by
  induction run generalizing f with
  | nil => exact h
  | cons g run ih =>
    refine ih (h.apres fun t => ⟨?_, ?_⟩) fun t => ⟨?_, ?_⟩
    · exact fun hg => (hrun t).1 (hg ▸ List.mem_cons_self ..)
    · exact fun hg => (hrun t).2 (hg ▸ List.mem_cons_self ..)
    · exact fun hmem => (hrun t).1 (List.mem_cons_of_mem _ hmem)
    · exact fun hmem => (hrun t).2 (List.mem_cons_of_mem _ hmem)

/-- What a visitor does who leaves the e-mail alone, and types his password. -/
def Delaisse (g : Saisir) : Prop :=
  g ≠ .va (some .email) ∧ ∀ t, g ≠ .colle .email t ∧ g ≠ .colle .mdp1 t

/-- He is still in the number, with no password; or the e-mail is that of `checkEleve`. -/
def Remplie (f : Saisie) : Prop :=
  f.focus ≠ some .email ∧
    (f.valeur .email = mail ∨ f.focus = some .numEtudiant ∧ f.valeur .mdp1 = [])

theorem Remplie.apres (h : f.Remplie) {g : Saisir} (hg : Delaisse g) : (f.apres g).Remplie := by
  obtain ⟨hfocus, hmail⟩ := h
  cases g with
  | va c =>
    have hc : c ≠ some .email := fun hc => hg.1 (congrArg Saisir.va hc)
    rw [Saisie.apres]
    split_ifs with hleft
    · exact ⟨hc, Or.inl (email_checkEleve f)⟩
    · refine ⟨hc, hmail.imp_right fun hnum => ⟨?_, hnum.2⟩⟩
      by_contra hne
      exact hleft ⟨hnum.1, hne⟩
  | tape t =>
    rw [Saisie.apres]
    rcases hf : f.focus with _ | c
    · rw [hf] at hmail
      exact ⟨hfocus, by rw [hf]; exact hmail⟩
    · have hc : c ≠ .email := fun hc => hfocus (hf.trans (congrArg some hc))
      have hkeep : ∀ f' : Saisie, f'.focus = f.focus → f'.valeur = (f.ecrit c t).valeur →
          f'.Remplie := by
        intro f' hfocus' hvaleur
        refine ⟨by rw [hfocus']; exact hfocus, ?_⟩
        rw [hfocus', hvaleur]
        refine hmail.imp (fun hm => ?_) fun hnum => ⟨hnum.1, ?_⟩
        · rw [valeur_ecrit_of_ne hc.symm, hm]
        · obtain rfl : c = .numEtudiant := Option.some_inj.mp (hf.symm.trans hnum.1)
          exact (valeur_ecrit_of_ne (by decide) t).trans hnum.2
      dsimp only
      split_ifs
      · exact hkeep _ rfl rfl
      · exact hkeep _ rfl rfl
  | colle c t =>
    have hc : c ≠ .email ∧ c ≠ .mdp1 :=
      ⟨fun hc => (hg.2 t).1 (by rw [hc]), fun hc => (hg.2 t).2 (by rw [hc])⟩
    refine ⟨hfocus, hmail.imp (fun hm => ?_) fun hnum => ⟨hnum.1, ?_⟩⟩
    · exact (valeur_ecrit_of_ne hc.1.symm t).trans hm
    · exact (valeur_ecrit_of_ne hc.2.symm t).trans hnum.2
  | choisit a => exact ⟨hfocus, hmail⟩

theorem Remplie.apresTout (h : f.Remplie) (hrun : ∀ g ∈ run, Delaisse g) :
    (f.apresTout run).Remplie := by
  induction run generalizing f with
  | nil => exact h
  | cons g run ih =>
    rw [List.forall_mem_cons] at hrun
    exact ih (h.apres hrun.1) hrun.2

/-- **The e-mail of a visitor who leaves it alone**, once he has a password. -/
theorem email_apresTout (hrun : ∀ g ∈ run, Delaisse g)
    (hmdp1 : (neuve.apresTout run).valeur .mdp1 ≠ []) :
    (neuve.apresTout run).valeur .email = mail := by
  have hneuve : neuve.Remplie := ⟨by decide, Or.inr ⟨rfl, rfl⟩⟩
  exact (hneuve.apresTout hrun).2.resolve_right fun h => hmdp1 h.2

end Saisie

end Web
end RondeDesFacs
