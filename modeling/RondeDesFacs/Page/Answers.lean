import RondeDesFacs.Page.Zones

/-!
# Which page an answer is

A request names the page it asks for, an answer does not, and `_fillSquareKPI` takes
`_begin` for it, which has moved on with every click since.  `_begin` is the page that
the zone asked for *last* (`Suivi`).  The exception is a zone that has only asked for
its first page: `initArrow` asks for the page from `1`, whatever `data-begin` is.

So an answer is taken for the page it is exactly if it answers the last request of
its zone or one for the same page (`matched_iff`).
-/

namespace RondeDesFacs
namespace Page

open Servlet SquareZone

variable {n : ℕ}

/-- The requests a zone has sent. -/
def Zones.envoisDe (p : Zones n) (z : Fin n) : List (Envoi n) :=
  p.envois.filter fun e => e.zone = z

/-- An answer that arrives is used as the page it was asked for. -/
def Matched (p : Zones n) : Evenement n → Prop
  | .clic _ _ => True
  | .reponse k _ => ∀ e ∈ p.ouvert k, (p.zones e.zone).begin = e.debut

/-- An answer that arrives is the one to the last request of its zone, or one for the
same page; and if that request is the zone's first, `data-begin` is the page it asks
for. -/
def Attendu (ws : Fin n → Wrapper) (p : Zones n) : Evenement n → Prop
  | .clic _ _ => True
  | .reponse k _ => ∀ e ∈ p.ouvert k, ∃ d ∈ (p.envoisDe e.zone).getLast?,
      e.debut = d.debut ∧ (p.envoisDe e.zone = [d] → (ws e.zone).begin = d.debut)

/-! ## The page of a zone -/

/-- A zone has asked for the page from `1`, and is where `data-begin` says; or it is on
the page it has asked for last. -/
def Suivi (ws : Fin n → Wrapper) (p : Zones n) (z : Fin n) : Prop :=
  (∃ d, p.envoisDe z = [d] ∧ (p.zones z).begin = (ws z).begin) ∨
    ∃ es d, es ≠ [] ∧ p.envoisDe z = es ++ [d] ∧ (p.zones z).begin = d.debut

theorem envoisDe_generateKPI (ws : Fin n → Wrapper) (z : Fin n) :
    (Zones.generateKPI ws).envoisDe z = [⟨z, SquareZone.initArrow (ws z).request, 1⟩] := by
  rw [Zones.generateKPI, foldl_initArrow, Zones.envoisDe, List.nil_append, List.filter_map]
  have hone : (List.finRange n).filter (fun z' => z' = z) = [z] := by
    rw [List.filter_eq, List.count_finRange, List.replicate_one]
  exact congrArg (List.map _) hone

theorem envoisDe_append (p : Zones n) (zones : Fin n → SquareZone) (e : Envoi n) (z : Fin n) :
    ({ p with zones := zones, envois := p.envois ++ [e] } : Zones n).envoisDe z =
      if e.zone = z then p.envoisDe z ++ [e] else p.envoisDe z := by
  show (p.envois ++ [e]).filter (fun e => e.zone = z) = _
  rw [List.filter_append]
  split_ifs with hz
  · rw [List.filter_cons_of_pos (by simpa using hz)]
    rfl
  · rw [List.filter_cons_of_neg (by simpa using hz), List.filter_nil, List.append_nil]
    rfl

/-- A click moves the zone that handles it to the page it asks for. -/
theorem begin_of_fleche {w : Wrapper} {f : Fleche} {s s' : SquareZone} {requete : Requete}
    (h : w.fleche f s = some (requete, s')) : s'.begin = debutDemande f s := by
  cases f with
  | previous =>
    rw [Wrapper.fleche, previous] at h
    rw [debutDemande]
    split_ifs at h ⊢ with hend hmore
    · cases h
      rfl
    · cases h
      rfl
  | next =>
    rw [Wrapper.fleche, next] at h
    rw [debutDemande]
    split_ifs at h ⊢ with hstart hmore
    · cases h
      rfl
    · cases h
      rfl

theorem suivi_congr {ws : Fin n → Wrapper} {p q : Zones n} {z : Fin n}
    (henvois : q.envoisDe z = p.envoisDe z) (hbegin : (q.zones z).begin = (p.zones z).begin)
    (hp : Suivi ws p z) : Suivi ws q z := by
  rw [Suivi, henvois, hbegin]
  exact hp

theorem suivi_generateKPI (ws : Fin n → Wrapper) (z : Fin n) :
    Suivi ws (Zones.generateKPI ws) z := by
  refine Or.inl ⟨_, envoisDe_generateKPI ws z, ?_⟩
  rw [Zones.generateKPI, foldl_initArrow]
  rfl

/-- A zone that handles a click is on the page that the click asked for; for the others
nothing changes. -/
theorem suivi_handle {ws : Fin n → Wrapper} {p : Zones n} (hp : ∀ z, Suivi ws p z)
    (h z : Fin n) (f : Fleche) (z' : Fin n) : Suivi ws (p.handle ws h z f) z' := by
  rcases hclick : (ws z).fleche f (p.zones h) with _ | ⟨requete, s⟩
  · rw [handle_of_none hclick]
    exact hp z'
  · rw [handle_of_some hclick]
    have henvois := envoisDe_append p (Function.update p.zones h s)
      ⟨h, requete, debutDemande f (p.zones h)⟩ z'
    by_cases hz : h = z'
    · subst hz
      rw [if_pos rfl] at henvois
      refine Or.inr ⟨p.envoisDe h, _, ?_, henvois, ?_⟩
      · rcases hp h with ⟨d, hd, -⟩ | ⟨es, d, -, hd, -⟩ <;> simp [hd]
      · show (Function.update p.zones h s h).begin = _
        rw [Function.update_self]
        exact begin_of_fleche hclick
    · rw [if_neg hz] at henvois
      refine suivi_congr henvois ?_ (hp z')
      show (Function.update p.zones h s z').begin = _
      rw [Function.update_of_ne (Ne.symm hz)]

theorem suivi_step (ws : Fin n → Wrapper) (p : Zones n) (ev : Evenement n)
    (hp : ∀ z, Suivi ws p z) (z : Fin n) : Suivi ws (p.step ws ev) z := by
  cases ev with
  | clic z' f =>
    rw [Zones.step]
    rcases p.lie with _ | h
    · exact hp z
    · exact suivi_handle hp h z' f z
  | reponse k data =>
    rcases hopen : p.ouvert k with _ | e
    · rw [step_reponse_of_none ws hopen]
      exact hp z
    · rw [step_reponse_of_some ws hopen]
      exact suivi_congr (p := p) rfl (begin_fillSquareKPI e.zone p.zones data z) (hp z)

theorem mem_envoisDe_of_ouvert {p : Zones n} {k : ℕ} {e : Envoi n} (h : e ∈ p.ouvert k) :
    e ∈ p.envoisDe e.zone := by
  have hmem : e ∈ p.envois := by
    unfold Zones.ouvert at h
    split_ifs at h
    · cases h
    · exact List.mem_of_getElem? h
  exact List.mem_filter.mpr ⟨hmem, by simp⟩

/-- **An answer is used as the page it was asked for** exactly if it is awaited. -/
theorem matched_iff {ws : Fin n → Wrapper} {p : Zones n} (hp : ∀ z, Suivi ws p z)
    (ev : Evenement n) : Matched p ev ↔ Attendu ws p ev := by
  cases ev with
  | clic z f => exact Iff.rfl
  | reponse k data =>
    refine forall₂_congr fun e he => ?_
    have hmem := mem_envoisDe_of_ouvert he
    rcases hp e.zone with ⟨d, hd, hbegin⟩ | ⟨es, d, hes, hd, hbegin⟩
    · -- the only request of its zone
      obtain rfl : e = d := by simpa [hd] using hmem
      rw [hbegin, hd]
      simp
    · rw [hbegin, hd]
      simp [hes, eq_comm]

/-- **Responses are matched with the page they answer** in exactly the runs in which
every answer that arrives is awaited. -/
theorem matching (ws : Fin n → Wrapper) (evs : List (Evenement n)) :
    (∀ t ∈ etapes ws (Zones.generateKPI ws) evs, Matched t.1 t.2) ↔
      ∀ t ∈ etapes ws (Zones.generateKPI ws) evs, Attendu ws t.1 t.2 := by
  have hsuivi := forall_etapes (I := fun p => ∀ z, Suivi ws p z)
    (fun p ev hp => suivi_step ws p ev hp) (suivi_generateKPI ws) evs
  exact forall₂_congr fun t ht => matched_iff (hsuivi t ht) t.2

/-- The forward arrow is clicked before the first answer has come, which is then taken
for the page from `11`. -/
theorem matching_avance :
    ∃ t ∈ etapes (n := 1) (fun _ => classementWrapper)
        (Zones.generateKPI fun _ => classementWrapper) [.clic 0 .previous, .reponse 0 []],
      ¬ Matched t.1 t.2 := by
  refine ⟨_, List.mem_cons_of_mem _ (List.mem_singleton_self _), fun h => ?_⟩
  have hpage := h ⟨0, SquareZone.initArrow (.string "topRunner".toList), 1⟩ rfl
  exact absurd hpage (by decide)

end Page
end RondeDesFacs
