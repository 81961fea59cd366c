import RondeDesFacs.Page.Zones

/-!
# Zones that do not interfere

Were the zones of a page independent, a click on an arrow would be handled by the
zone that the arrow is on, and an answer would change no zone but the one that asked
(`Isole`).

On the page there is one zone for which this is so, the last.  It has the arrows of
all zones and shows the rows of all answers.  Hence an event is isolated exactly if
it comes from the last zone, or is an answer without rows, or a click that neither
moves its own zone nor the last one (`isole_iff`).
-/

namespace RondeDesFacs
namespace Page

open Servlet SquareZone

variable {n : ℕ}

/-- The event does what it would do if zones were independent: a click is handled by
the zone of its arrow and leaves the others alone, and so does an answer for the zone
that asked. -/
def Isole (ws : Fin n → Wrapper) (p : Zones n) : Evenement n → Prop
  | .clic z f => p.step ws (.clic z f) = p.handle ws z z f ∧
      ∀ z' ≠ z, (p.step ws (.clic z f)).zones z' = p.zones z'
  | .reponse k data =>
    ∀ e ∈ p.ouvert k, ∀ z ≠ e.zone, (p.step ws (.reponse k data)).zones z = p.zones z

/-- The event comes from the last zone, or there is nothing it could change. -/
def Propre (p : Zones n) : Evenement n → Prop
  | .clic z f =>
    z = derniere z ∨ ¬ Bouge (p.zones z) f ∧ ¬ Bouge (p.zones (derniere z)) f
  | .reponse k data => ∀ e ∈ p.ouvert k, e.zone = derniere e.zone ∨ data = []

/-- A zone changes no other when it handles a click. -/
theorem handle_zones_of_ne (ws : Fin n → Wrapper) (p : Zones n) {h z z' : Fin n} (hz : z' ≠ h)
    (f : Fleche) : (p.handle ws h z f).zones z' = p.zones z' := by
  unfold Zones.handle
  split
  · rfl
  · exact Function.update_of_ne hz _ _

/-! ## Clicks -/

/-- Two different zones handle a click alike exactly if it moves neither. -/
theorem handle_eq_handle_iff (ws : Fin n → Wrapper) (p : Zones n) {h h' : Fin n} (hne : h ≠ h')
    (z : Fin n) (f : Fleche) :
    p.handle ws h z f = p.handle ws h' z f ↔
      ¬ Bouge (p.zones h') f ∧ ¬ Bouge (p.zones h) f := by
  rcases handle_envois ws p h z f with ⟨hbouge, requete, henvois⟩ | ⟨hbouge, hsame⟩ <;>
    rcases handle_envois ws p h' z f with ⟨hbouge', requete', henvois'⟩ | ⟨hbouge', hsame'⟩
  · -- the request of one is not the request of the other
    refine ⟨fun heq => ?_, fun hnot => absurd hbouge hnot.2⟩
    have hlast := congrArg Zones.envois heq
    rw [henvois, henvois'] at hlast
    have hzone : h = h' := by simpa using congrArg (List.map Envoi.zone) hlast
    exact absurd hzone hne
  · refine ⟨fun heq => ?_, fun hnot => absurd hbouge hnot.2⟩
    rw [heq, hsame'] at henvois
    simp at henvois
  · refine ⟨fun heq => ?_, fun hnot => absurd hbouge' hnot.1⟩
    rw [← heq, hsame] at henvois'
    simp at henvois'
  · exact ⟨fun _ => ⟨hbouge', hbouge⟩, fun _ => by rw [hsame, hsame']⟩

/-! ## Answers -/

/-- An answer leaves the other zones alone exactly if its zone is the last, or it has
no rows. -/
theorem fillSquareKPI_isole_iff (z : Fin n) (zones : Fin n → SquareZone)
    (data : List (PiePoint × ℕ)) :
    (∀ z' ≠ z, fillSquareKPI z zones data z' = zones z') ↔ z = derniere z ∨ data = [] := by
  constructor
  · intro h
    by_contra hnot
    obtain ⟨hlast, hdata⟩ := not_or.mp hnot
    have hlen := length_content_remplit z 1
      (Function.update zones z { zones z with max := (zones z).begin }) data
    have hsame := h (derniere z) (Ne.symm hlast)
    rw [fillSquareKPI] at hsame
    rw [hsame, Function.update_of_ne (Ne.symm hlast), Nat.left_eq_add, Nat.mul_eq_zero,
      List.length_eq_zero_iff] at hlen
    rcases hlen with rfl | hnil
    · exact z.elim0
    · exact hdata hnil
  · rintro h z' hz
    rcases h with hlast | rfl
    · rw [fillSquareKPI, remplit_of_ne z hz (hlast ▸ hz), Function.update_of_ne hz]
    · rw [fillSquareKPI, remplit, Function.update_of_ne hz]

/-! ## Runs -/

/-- An event on a page whose last zone has the arrows. -/
theorem isole_iff (ws : Fin n → Wrapper) {p : Zones n}
    (hlie : ∀ z, p.lie = some (derniere z)) (ev : Evenement n) :
    Isole ws p ev ↔ Propre p ev := by
  cases ev with
  | clic z f =>
    have hstep : p.step ws (.clic z f) = p.handle ws (derniere z) z f := by
      rw [Zones.step, hlie z]
    have hframe : p.step ws (.clic z f) = p.handle ws z z f →
        ∀ z' ≠ z, (p.step ws (.clic z f)).zones z' = p.zones z' := by
      intro heq z' hz'
      rw [heq, handle_zones_of_ne ws p hz']
    rw [Isole, and_iff_left_of_imp hframe, hstep, Propre]
    by_cases hz : z = derniere z
    · rw [← hz]
      exact iff_of_true rfl (Or.inl rfl)
    · rw [handle_eq_handle_iff ws p (Ne.symm hz), or_iff_right hz]
  | reponse k data =>
    rw [Isole, Propre]
    refine forall₂_congr fun e he => ?_
    have hopen : p.ouvert k = some e := he
    rw [Zones.step, hopen]
    exact fillSquareKPI_isole_iff e.zone p.zones data

/-- **Zones do not interfere** in exactly the runs whose events all come from the zone
made last, or could change nothing. -/
theorem isolation (ws : Fin n → Wrapper) (evs : List (Evenement n)) :
    (∀ t ∈ etapes ws (Zones.generateKPI ws) evs, Isole ws t.1 t.2) ↔
      ∀ t ∈ etapes ws (Zones.generateKPI ws) evs, Propre t.1 t.2 := by
  have hlie := forall_etapes (I := fun p => ∀ z, p.lie = some (derniere z))
    (fun p ev hp z => (step_lie ws p ev).trans (hp z)) (generateKPI_lie ws) evs
  exact forall₂_congr fun t ht => isole_iff ws (hlie t ht) t.2

/-- A page with one zone. -/
theorem propre_of_subsingleton (hn : n ≤ 1) (p : Zones n) (ev : Evenement n) : Propre p ev := by
  have : Subsingleton (Fin n) := Fin.subsingleton_iff_le_one.mpr hn
  cases ev with
  | clic z f => exact Or.inl (Subsingleton.elim _ _)
  | reponse k data => exact fun e _ => Or.inl (Subsingleton.elim _ _)

/-- Two leader boards: the rows of the first appear in the second. -/
theorem isolation_deux :
    ∃ t ∈ etapes (n := 2) (fun _ => classementWrapper)
        (Zones.generateKPI fun _ => classementWrapper)
        [.reponse 0 [(⟨some "1".toList, 3, "Martin".toList, none⟩, 1)]],
      ¬ Isole (fun _ => classementWrapper) t.1 t.2 := by
  refine ⟨_, List.mem_singleton_self _, fun h => ?_⟩
  have hshown := h ⟨0, SquareZone.initArrow (.string "topRunner".toList), 1⟩ rfl 1 (by decide)
  exact absurd (congrArg (fun s => s.content.length) hshown) (by decide)

end Page
end RondeDesFacs
