import RondeDesFacs.Servlet.StoredProcedure
import RondeDesFacs.Library.Association

/-!
# The servlet `LDAP`

`call` looks a user up in the directory of the university and answers with four of the
attributes of the entry.  Both `try` catch one family of exceptions, those of the directory;
an attribute that is absent is a null reference, and one that is present may still have no
value, which `get` reports with an exception of another family.  Only `diplomep` is looked
at before it is read.

So an entry without a mail address, a first name or a last name brings the call down,
unless the directory fails before `call` gets there (`call_answers`).
-/

namespace RondeDesFacs
namespace Servlet
namespace LDAP

/-- An exception: a `NamingException`, or one of two that nothing in `call` catches. -/
inductive Exception where
  | naming
  | nullPointer
  | noSuchElement
  deriving DecidableEq

/-- An attribute of an entry: its values in the order of the directory, or a failure to
read them. -/
inductive Attribut where
  | valeurs (vs : List Text)
  | echec
  deriving DecidableEq

/-- The attributes of an entry, by their identifiers; null for one that is absent. -/
abbrev Attributes := Text → Option Attribut

/-- `DirContext.getAttributes`; none for a `NamingException`. -/
abbrev DirContext := Text → Option Attributes

/-- `jsonObject`. -/
abbrev JSONObject := List (Text × Text)

/-- The HTTP answer. -/
inductive Response where
  | status200 (entity : JSONObject)
  | status503
  deriving DecidableEq

/-- What the directory throws is a `NamingException`. -/
def throwsNaming {α : Type} : Option α → Except Exception α
  | none => .error .naming
  | some a => .ok a

/-- `attr.get()`: the first value of an attribute. -/
def get : Option Attribut → Except Exception Text
  | none => .error .nullPointer
  | some .echec => .error .naming
  | some (.valeurs []) => .error .noSuchElement
  | some (.valeurs (v :: _)) => .ok v

/-- `catch (NamingException e) { return Response.status(503).build(); }`. -/
def catchNaming : Except Exception Response → Except Exception Response
  | .error .naming => .ok .status503
  | r => r

/-- The distinguished name of the user. -/
def name (param1 param2 : Option Text) : Text :=
  "uid=".toList ++ orNull param1 ++ ",ou=".toList ++ orNull param2 ++
    ",ou=people,dc=unice,dc=fr".toList

/-- `attrs.get("diplomep") != null ? attrs.get("diplomep").get() : ""`. -/
def diplomep (attrs : Attributes) : Except Exception Text :=
  if attrs "diplomep".toList ≠ none then get (attrs "diplomep".toList) else .ok []

/-- The four `jsonObject.put`. -/
def jsonObject (mail diplomep givenName sn : Text) : JSONObject :=
  [("mail", mail), ("diplomep", diplomep), ("givenName", givenName), ("sn", sn)].foldl
    (fun json e => Association.put json e.1.toList e.2) []

/-- What the inner `try` does with an entry. -/
def utilisateur (attrs : Attributes) : Except Exception JSONObject := do
  let mail ← get (attrs "mail".toList)
  let diplomep ← diplomep attrs
  let givenName ← get (attrs "givenName".toList)
  let sn ← get (attrs "sn".toList)
  return jsonObject mail diplomep givenName sn

/-- `call`, where `annuaire` is what `new InitialDirContext` makes of the address of the
directory. -/
def call (annuaire : Option DirContext) (param1 param2 : Option Text) :
    Except Exception Response :=
  catchNaming do
    let contexte ← throwsNaming annuaire
    catchNaming do
      let attrs ← throwsNaming (contexte (name param1 param2))
      let entity ← utilisateur attrs
      return .status200 entity

/-! ## What is asked of the call -/

/-- The fields of the answer. -/
def champs : List Text := ["mail".toList, "diplomep".toList, "givenName".toList, "sn".toList]

/-- The answer for an entry has the four fields, `diplomep` empty if it is absent. -/
structure Fiche (attrs : Attributes) (entity : JSONObject) : Prop where
  champs : ∀ c ∈ champs, (Association.get entity c).isSome
  diplomep : attrs "diplomep".toList = none → Association.get entity "diplomep".toList = some []

/-- The call answers 503, or 200 with the four fields. -/
def Repond (annuaire : Option DirContext) (param1 param2 : Option Text) : Prop :=
  call annuaire param1 param2 = .ok .status503 ∨
    ∃ contexte attrs entity, annuaire = some contexte ∧
      contexte (name param1 param2) = some attrs ∧
        call annuaire param1 param2 = .ok (.status200 entity) ∧ Fiche attrs entity

/-- The attributes that are read, in this order. -/
def lus (attrs : Attributes) : List (Option Attribut) :=
  attrs "mail".toList :: (attrs "diplomep".toList).toList.map some ++
    [attrs "givenName".toList, attrs "sn".toList]

/-- The attribute is present and has a value. -/
def Rempli (a : Option Attribut) : Prop := ∃ v vs, a = some (.valeurs (v :: vs))

/-- Every attribute that is read before one that fails has a value. -/
def Lisible (attrs : Attributes) : Prop :=
  ∀ a ∈ (lus attrs).takeWhile fun a => a ≠ some .echec, Rempli a

/-! ## The attributes, one after the other -/

/-- **One attribute**: it has a value, it fails, or `get` throws an exception that is not
caught. -/
theorem get_cases (a : Option Attribut) :
    (∃ v, get a = .ok v ∧ Rempli a) ∨ (get a = .error .naming ∧ a = some .echec) ∨
      ∃ e, get a = .error e ∧ e ≠ .naming ∧ a ≠ some .echec ∧ ¬ Rempli a := by
  rcases a with _ | ⟨_ | ⟨v, vs⟩⟩ | _
  · exact Or.inr (Or.inr ⟨.nullPointer, rfl, by decide, by decide, by simp [Rempli]⟩)
  · exact Or.inr (Or.inr ⟨.noSuchElement, rfl, by decide, by decide, by simp [Rempli]⟩)
  · exact Or.inl ⟨v, rfl, v, vs, rfl⟩
  · exact Or.inr (Or.inl ⟨rfl, rfl⟩)

/-- **A list of attributes** is read, or fails with a `NamingException`, exactly if every
attribute before the first failure has a value. -/
theorem mapM_get_iff (l : List (Option Attribut)) :
    (∀ e, l.mapM get = .error e → e = .naming) ↔
      ∀ a ∈ l.takeWhile fun a => a ≠ some .echec, Rempli a := by
  induction l with
  | nil => exact ⟨fun _ a ha => absurd ha List.not_mem_nil, fun _ e he => by cases he⟩
  | cons a l ih =>
    rw [List.mapM_cons]
    rcases get_cases a with ⟨v, hget, hrempli⟩ | ⟨hget, rfl⟩ | ⟨e, hget, hne, hechec, hvide⟩
    · have hechec : a ≠ some .echec := by
        obtain ⟨w, ws, rfl⟩ := hrempli
        exact fun h => by cases h
      rw [List.takeWhile_cons_of_pos (by simpa using hechec), List.forall_mem_cons,
        and_iff_right hrempli, ← ih, hget]
      rcases hl : l.mapM get with e | vs
      · exact Iff.rfl
      · constructor <;> exact fun _ e he => by cases he
    · rw [List.takeWhile_cons_of_neg (by simp), hget]
      refine ⟨fun _ a ha => absurd ha List.not_mem_nil, fun _ e he => ?_⟩
      exact (Except.error.inj he).symm
    · rw [List.takeWhile_cons_of_pos (by simpa using hechec), List.forall_mem_cons, hget]
      exact ⟨fun h => absurd (h e rfl) hne, fun h => absurd h.1 hvide⟩

theorem bind_eq_error_iff {α β : Type} {x : Except Exception α} {f : α → Except Exception β}
    {e : Exception} :
    x.bind f = .error e ↔ x = .error e ∨ ∃ a, x = .ok a ∧ f a = .error e := by
  rcases x with e' | a
  · simp [Except.bind]
  · simp [Except.bind]

theorem bind_eq_ok_iff {α β : Type} {x : Except Exception α} {f : α → Except Exception β}
    {b : β} : x.bind f = .ok b ↔ ∃ a, x = .ok a ∧ f a = .ok b := by
  rcases x with e | a
  · simp [Except.bind]
  · simp [Except.bind]

/-- An entry fails the way its attributes do. -/
theorem utilisateur_eq_error_iff (attrs : Attributes) (e : Exception) :
    utilisateur attrs = .error e ↔ (lus attrs).mapM get = .error e := by
  unfold utilisateur lus diplomep
  rcases attrs "diplomep".toList with _ | diplomep <;>
    simp [List.mapM_cons, bind, pure, Except.pure, bind_eq_error_iff]

/-- What is put under a name is there. -/
theorem fiche_jsonObject {attrs : Attributes} (mail givenName sn : Text) {v : Text}
    (hv : attrs "diplomep".toList = none → v = []) :
    Fiche attrs (jsonObject mail v givenName sn) := by
  have hputs : jsonObject mail v givenName sn =
      Association.put (Association.put (Association.put (Association.put []
        "mail".toList mail) "diplomep".toList v) "givenName".toList givenName) "sn".toList sn := by
    simp only [jsonObject, List.foldl_cons, List.foldl_nil]
  rw [hputs]
  refine ⟨fun c hc => ?_, fun habsent => ?_⟩
  · rw [Option.isSome_iff_exists, ← Association.mem_keys_iff]
    rw [LDAP.champs, List.mem_cons, List.mem_cons, List.mem_cons, List.mem_singleton] at hc
    simp only [Association.mem_keys_put]
    rcases hc with h | h | h | h <;> simp only [h, true_or, or_true]
  · rw [Association.get_put_of_ne (by decide), Association.get_put_of_ne (by decide),
      Association.get_put_self, hv habsent]

/-- An entry that is read has all its fields. -/
theorem fiche_of_utilisateur {attrs : Attributes} {entity : JSONObject}
    (h : utilisateur attrs = .ok entity) : Fiche attrs entity := by
  unfold utilisateur at h
  obtain ⟨mail, -, h⟩ := bind_eq_ok_iff.mp h
  obtain ⟨v, hv, h⟩ := bind_eq_ok_iff.mp h
  obtain ⟨givenName, -, h⟩ := bind_eq_ok_iff.mp h
  obtain ⟨sn, -, h⟩ := bind_eq_ok_iff.mp h
  obtain rfl := Except.ok.inj h
  refine fiche_jsonObject mail givenName sn fun habsent => ?_
  rw [diplomep, if_neg (not_not.mpr habsent)] at hv
  exact (Except.ok.inj hv).symm

theorem not_repond_of_error {annuaire : Option DirContext} {param1 param2 : Option Text}
    {e : Exception} (h : call annuaire param1 param2 = .error e) :
    ¬ Repond annuaire param1 param2 := by
  rintro (h' | ⟨_, _, _, _, _, h', _⟩)
  · rw [h] at h'
    cases h'
  · rw [h] at h'
    cases h'

/-- **The call at an entry.** -/
theorem repond_iff_of_entry {contexte : DirContext} {param1 param2 : Option Text}
    {attrs : Attributes} (hattrs : contexte (name param1 param2) = some attrs) :
    Repond (some contexte) param1 param2 ↔ Lisible attrs := by
  have hcall : call (some contexte) param1 param2 =
      catchNaming (catchNaming
        ((utilisateur attrs).bind fun entity => .ok (.status200 entity))) := by
    show catchNaming (catchNaming ((throwsNaming (contexte (name param1 param2))).bind _)) = _
    rw [hattrs]
    rfl
  rw [Lisible, ← mapM_get_iff]
  simp only [← utilisateur_eq_error_iff]
  rcases hread : utilisateur attrs with e | entity
  · rw [hread] at hcall
    rcases e with _ | _ | _
    · exact ⟨fun _ e he => (Except.error.inj he).symm, fun _ => Or.inl hcall⟩
    all_goals
      exact ⟨fun h => absurd h (not_repond_of_error hcall), fun h => absurd (h _ rfl) (by decide)⟩
  · rw [hread] at hcall
    exact ⟨fun _ e he => (by cases he), fun _ => Or.inr ⟨contexte, attrs, entity, rfl, hattrs,
      hcall, fiche_of_utilisateur hread⟩⟩

/-- **When `call` answers.**  Exactly if the directory cannot be reached, does not find the
name, or finds an entry whose attributes have values up to the first that fails. -/
theorem call_answers (annuaire : Option DirContext) (param1 param2 : Option Text) :
    Repond annuaire param1 param2 ↔
      ∀ contexte attrs, annuaire = some contexte →
        contexte (name param1 param2) = some attrs → Lisible attrs := by
  rcases annuaire with _ | contexte
  · exact ⟨fun _ _ _ h => (by cases h), fun _ => Or.inl rfl⟩
  · rcases hattrs : contexte (name param1 param2) with _ | attrs
    · refine ⟨fun _ _ _ h h' => ?_, fun _ => Or.inl ?_⟩
      · obtain rfl := Option.some.inj h
        rw [hattrs] at h'
        cases h'
      · show catchNaming (catchNaming ((throwsNaming (contexte (name param1 param2))).bind _)) = _
        rw [hattrs]
        rfl
    · rw [repond_iff_of_entry hattrs]
      refine ⟨fun h _ _ hc ha => ?_, fun h => h contexte attrs rfl hattrs⟩
      obtain rfl := Option.some.inj hc
      rw [hattrs] at ha
      exact Option.some.inj ha ▸ h

/-- A user who has no mail address. -/
def sansMail : Attributes := fun id =>
  if id = "givenName".toList then some (.valeurs ["Alice".toList])
  else if id = "sn".toList then some (.valeurs ["Martin".toList]) else none

/-- The call ends with a `NullPointerException`. -/
theorem call_answers_sansMail :
    ¬ Repond (some fun _ => some sansMail) (some "alice".toList) (some "etudiants".toList) := by
  have hcall : call (some fun _ => some sansMail) (some "alice".toList)
      (some "etudiants".toList) = .error .nullPointer := by
    decide
  exact not_repond_of_error hcall

end LDAP
end Servlet
end RondeDesFacs
