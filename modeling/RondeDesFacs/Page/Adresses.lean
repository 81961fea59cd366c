import RondeDesFacs.Base.Split
import RondeDesFacs.Page.DataManager

/-!
# The postal code of an address

`adressReducer` looks for the postal code of an address between ` - ` and ` PARIS`, and
gives the code of the arrondissement as `codeReducer` does for a postal code.  It takes the
first ` - ` for the one in front of the postal code.

So the two agree, whatever stands behind the postal code, if that is the first one (`Franc`).
A street text with a ` - ` of its own, or with ` -` at its end, leads to another part of the
address, which has the right code only by chance (`formatters_agree`).
-/

namespace RondeDesFacs
namespace Page

open Script Occurrence

/-- What stands in front of a postal code. -/
def tiret : Chaine := chaine " - "

/-- What stands behind one. -/
def paris : Chaine := chaine " PARIS"

/-- An address. -/
def adresse (s z t : Chaine) : Chaine := s ++ (tiret ++ (z ++ (paris ++ t)))

/-- A street text in which no ` - ` begins. -/
structure Franc (s : Chaine) : Prop where
  dedans : ¬ tiret <:+: s
  fin : ¬ chaine " -" <:+ s

/-- By chance the street text leads to the right code: what is taken for the postal code has
the same two units at its fourth place.  It is `- ` and the postal code, or a part of the
street text. -/
inductive Hasard (s z : Chaine) : Prop where
  | fin (a : Chaine) (ha : Franc a) (hs : s = a ++ chaine " -")
      (h : (z.drop 1).take 2 = substring35 z)
  | dedans (a b : Chaine) (ha : Franc a) (hs : s = a ++ (tiret ++ b))
      (h : substring35 (avant paris (avant tiret (b ++ tiret))) = substring35 z)

variable {N : Type} [Nombre N]

/-- A postal code: a text of five digits, or a number that is written so. -/
structure CodePostal (z : Valeur N) : Prop where
  cinq : z.texte.length = 5
  chiffres : ∀ c ∈ z.texte, estChiffre c = true

/-! ## The first dash -/

theorem tiret_eq : tiret = [0x20, 0x2D, 0x20] := by decide

theorem paris_eq : paris = [0x20, 0x50, 0x41, 0x52, 0x49, 0x53] := by decide

theorem tiret_ne_nil : tiret ≠ [] := by decide

theorem paris_ne_nil : paris ≠ [] := by decide

theorem fin_eq : chaine " -" = [0x20, 0x2D] := by decide

/-- **The first dash** of an address is the one behind a street text in which none begins. -/
theorem franc_iff {s : Chaine} : Franc s ↔ Clear tiret s tiret := by
  constructor
  · rintro ⟨hdedans, hfin⟩ w hw hne hstart
    rcases w with _ | ⟨x, _ | ⟨y, _ | ⟨c, w⟩⟩⟩
    · exact hne rfl
    · simp [tiret_eq] at hstart
    · -- the dash begins two units before the end
      rw [tiret_eq] at hstart
      simp only [List.cons_append, List.cons_prefix_cons] at hstart
      rw [fin_eq] at hfin
      exact hfin (hstart.1 ▸ hstart.2.1 ▸ hw)
    · have hlength : tiret.length ≤ (x :: y :: c :: w).length := by
        rw [tiret_eq]
        exact Nat.le_add_left _ _
      have hin := List.prefix_of_prefix_length_le hstart (List.prefix_append _ tiret) hlength
      exact hdedans (hin.isInfix.trans hw.isInfix)
  · refine fun h => ⟨fun hdedans => ?_, fun hfin => ?_⟩
    · obtain ⟨w, hstart, hw⟩ := List.infix_iff_prefix_suffix.mp hdedans
      refine h w hw (fun hnil => ?_) (hstart.trans (List.prefix_append w tiret))
      rw [hnil] at hstart
      exact tiret_ne_nil (List.prefix_nil.mp hstart)
    · refine h (chaine " -") hfin (by decide) ?_
      rw [fin_eq, tiret_eq]
      simp

/-- A street text with a dash is cut at the first. -/
theorem exists_of_not_franc {s : Chaine} (h : ¬ Franc s) :
    (∃ a, Franc a ∧ s = a ++ chaine " -") ∨ ∃ a b, Franc a ∧ s = a ++ (tiret ++ b) := by
  by_cases hdedans : tiret <:+: s
  · obtain ⟨a, b, hs, ha⟩ := exists_clear hdedans
    exact Or.inr ⟨a, b, franc_iff.mpr ha, hs⟩
  · by_cases hfin : chaine " -" <:+ s
    · obtain ⟨a, rfl⟩ := hfin
      refine Or.inl ⟨a, ⟨fun h => hdedans (h.trans (List.prefix_append _ _).isInfix), ?_⟩, rfl⟩
      rintro ⟨a, rfl⟩
      refine hdedans ⟨a, [0x2D], ?_⟩
      rw [tiret_eq, fin_eq]
      simp
    · exact absurd ⟨hdedans, hfin⟩ h

/-! ## What the formatters give -/

omit [Nombre N] in
/-- An address, cut at its first dash. -/
theorem adressReducer_eq {a : Chaine} (ha : Franc a) (r : Chaine) :
    adressReducer (.string (a ++ (tiret ++ r)) : Valeur N) =
      some (chaine "751" ++ substring35 (avant paris (avant tiret r))) := by
  obtain ⟨p, ps, hp⟩ := List.exists_cons_of_ne_nil (split_ne_nil tiret r)
  have hsplit : split (chaine " - ") (a ++ (tiret ++ r)) = a :: p :: ps := by
    rw [← hp]
    exact split_append_sep tiret_ne_nil (franc_iff.mp ha) r
  have havant : avant tiret r = p := by rw [avant, hp, List.headD_cons]
  rw [adressReducer, hsplit, havant]
  rfl

section Chiffres

variable {z : Chaine} (hz : ∀ c ∈ z, estChiffre c = true)
include hz

theorem notMem_of_not_chiffre {c : UInt16} (hc : estChiffre c = false) : c ∉ z := by
  intro hmem
  rw [hz c hmem] at hc
  cases hc

/-- A postal code behind its dash, up to the next dash. -/
theorem avant_tiret_code (t : Chaine) :
    avant tiret (z ++ (paris ++ t)) = z ++ (paris ++ avant tiret t) := by
  have hcode : Clear tiret z (paris ++ t) := by
    rw [tiret_eq]
    exact clear_of_notMem (notMem_of_not_chiffre hz (by decide)) _ _
  have hparis : Clear tiret paris t := by
    rw [tiret_eq, paris_eq]
    simp [clear_cons, clear_nil]
  rw [avant_append hcode, avant_append hparis]

theorem clear_paris_code : Clear paris z paris := by
  have hblank := clear_of_notMem (notMem_of_not_chiffre hz (c := 0x20) (by decide))
  rw [paris_eq]
  exact hblank _ _

end Chiffres

section Code

variable {s : Chaine} {z : Valeur N} (hz : CodePostal z) (t : Chaine)
include hz

/-- **With a street text in which no dash begins** the two agree. -/
theorem adressReducer_of_franc (hs : Franc s) :
    adressReducer (.string (adresse s z.texte t) : Valeur N) = some (codeReducer z) := by
  rw [adresse, adressReducer_eq hs, avant_tiret_code hz.chiffres,
    avant_append_sep paris_ne_nil (clear_paris_code hz.chiffres), codeReducer]

/-- With a dash at the end of the street text the postal code comes two units late. -/
theorem adressReducer_of_fin {a : Chaine} (ha : Franc a) :
    adressReducer (.string (adresse (a ++ chaine " -") z.texte t) : Valeur N) =
      some (chaine "751" ++ (z.texte.drop 1).take 2) := by
  have hpos : 0 < z.texte.length := hz.cinq ▸ Nat.succ_pos 4
  obtain ⟨c, w, hcode⟩ := List.exists_cons_of_ne_nil (List.ne_nil_of_length_pos hpos)
  have hc : estChiffre c = true := hz.chiffres c (hcode ▸ List.mem_cons_self ..)
  have htiret : c ≠ 0x2D := fun h => absurd (h ▸ hc) (by decide)
  have hp : c ≠ 0x50 := fun h => absurd (h ▸ hc) (by decide)
  have hadresse : adresse (a ++ chaine " -") z.texte t =
      a ++ (tiret ++ ([0x2D, 0x20] ++ (z.texte ++ (paris ++ t)))) := by
    rw [adresse, fin_eq, tiret_eq]
    simp
  have hdash : Clear tiret [0x2D, 0x20] (z.texte ++ (paris ++ t)) := by
    rw [tiret_eq, hcode]
    simp [clear_cons, clear_nil, htiret.symm]
  have hparis : Clear paris ([0x2D, 0x20] ++ z.texte) paris := by
    have hrest := clear_paris_code hz.chiffres
    rw [hcode] at hrest ⊢
    refine clear_cons.mpr ⟨?_, clear_cons.mpr ⟨?_, hrest⟩⟩
    · rw [paris_eq]
      simp
    · rw [paris_eq]
      simp [hp.symm]
  rw [hadresse, adressReducer_eq ha, avant_append hdash, avant_tiret_code hz.chiffres,
    ← List.append_assoc, avant_append_sep paris_ne_nil hparis]
  rfl

omit hz in
/-- With a dash in the street text the postal code does not count. -/
theorem adressReducer_of_dedans {a : Chaine} (ha : Franc a) (b : Chaine) :
    adressReducer (.string (adresse (a ++ (tiret ++ b)) z.texte t) : Valeur N) =
      some (chaine "751" ++ substring35 (avant paris (avant tiret (b ++ tiret)))) := by
  have hadresse : adresse (a ++ (tiret ++ b)) z.texte t =
      a ++ (tiret ++ (b ++ (tiret ++ (z.texte ++ (paris ++ t))))) := by
    simp only [adresse, List.append_assoc]
  rw [hadresse, adressReducer_eq ha, avant_sep_append tiret_ne_nil]

end Code

/-- The code of an arrondissement stays what it is. -/
theorem codeReducer_codeReducer (v : Valeur N) :
    codeReducer (.string (codeReducer v) : Valeur N) = codeReducer v := by
  have hdrop : (chaine "751" ++ substring35 v.texte).drop 3 = substring35 v.texte := rfl
  rw [codeReducer, Valeur.texte, codeReducer, substring35, hdrop, substring35, List.take_take,
    min_self]

/-- **When the two formatters agree.**  Exactly if the first dash of the address is the one in
front of the postal code, or by chance. -/
theorem formatters_agree (s t : Chaine) (z : Valeur N) (hz : CodePostal z) :
    (adressReducer (.string (adresse s z.texte t) : Valeur N) = some (codeReducer z) ∧
      ∀ v : Valeur N, codeReducer (.string (codeReducer v) : Valeur N) = codeReducer v) ↔
        Franc s ∨ Hasard s z.texte := by
  rw [and_iff_left codeReducer_codeReducer]
  have hcode : ∀ u : Chaine, some (chaine "751" ++ u) = some (codeReducer z) ↔
      u = substring35 z.texte := by
    intro u
    rw [codeReducer, Option.some_inj, List.append_cancel_left_eq]
  constructor
  · intro h
    by_contra hno
    rw [not_or] at hno
    rcases exists_of_not_franc hno.1 with ⟨a, ha, rfl⟩ | ⟨a, b, ha, rfl⟩
    · rw [adressReducer_of_fin hz t ha, hcode] at h
      exact hno.2 (.fin a ha rfl h)
    · rw [adressReducer_of_dedans t ha, hcode] at h
      exact hno.2 (.dedans a b ha rfl h)
  · rintro (hs | ⟨a, ha, rfl, h⟩ | ⟨a, b, ha, rfl, h⟩)
    · exact adressReducer_of_franc hz t hs
    · rw [adressReducer_of_fin hz t ha, hcode]
      exact h
    · rw [adressReducer_of_dedans t ha, hcode]
      exact h

/-- A postal code. -/
def quinzieme : Valeur (Option ℤ) := .string (chaine "75015")

/-- A street text with a dash. -/
def plusieursNumeros : Chaine := chaine "12 - 14 RUE LECOURBE"

/-- The number of a house is taken for the postal code. -/
theorem formatters_agree_plusieursNumeros :
    ¬ (adressReducer (.string (adresse plusieursNumeros quinzieme.texte []) :
        Valeur (Option ℤ)) = some (codeReducer quinzieme) ∧
      ∀ v : Valeur (Option ℤ), codeReducer (.string (codeReducer v) : Valeur (Option ℤ)) =
        codeReducer v) := by
  rintro ⟨h, -⟩
  revert h
  decide

/-- The condition for an address with one dash. -/
theorem formatters_agree_at_quinzieme :
    (adressReducer (.string (adresse (chaine "14 RUE LECOURBE") quinzieme.texte []) :
        Valeur (Option ℤ)) = some (codeReducer quinzieme) ∧
      ∀ v : Valeur (Option ℤ), codeReducer (.string (codeReducer v) : Valeur (Option ℤ)) =
        codeReducer v) ↔
          Franc (chaine "14 RUE LECOURBE") ∨ Hasard (chaine "14 RUE LECOURBE") quinzieme.texte :=
  formatters_agree (chaine "14 RUE LECOURBE") [] quinzieme
    ⟨by decide, List.all_eq_true.mp rfl⟩

end Page
end RondeDesFacs
