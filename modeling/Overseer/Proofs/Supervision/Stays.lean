import Overseer.Proofs.Supervision.Teardown

/-!
# A stay ends once

A ticket comes into the registry with the call whose number it is, and that call is over then. So
a ticket that has left the registry (`HasLeft`) does not come back (`not_mem_of_hasLeft`).
-/

namespace Overseer

namespace TaskSet

variable {κ ξ : Type} {s t : TaskSet κ ξ} {us : List CallId} {d : Option Deed} {k c : CallId}
  {h : List (SetOccurrence κ ξ)}

/-- The registration has been in the registry and has left it. -/
def HasLeft (h : List (SetOccurrence κ ξ)) (k : CallId) : Prop :=
  ∃ o ∈ h, k ∈ o.before.tickets ∧ k ∉ ((setSystem κ ξ).after o).tickets

instance (h : List (SetOccurrence κ ξ)) (k : CallId) : Decidable (HasLeft h k) :=
  inferInstanceAs (Decidable (∃ o ∈ h, _ ∧ _))

/-- A stay that ends has been in the registry and has left it. -/
theorem hasLeft_of_ending {o : SetOccurrence κ ξ} {x : Stay} (ho : o ∈ h)
    (hx : x ∈ endings o.before ((setSystem κ ξ).after o)) : HasLeft h x.1 := by
  obtain ⟨hx, hgone⟩ := List.mem_filter.1 hx
  refine ⟨o, ho, ?_, by simpa using hgone⟩
  rw [tickets_eq_map_stays]
  exact List.mem_map_of_mem hx

/-- A call of that number is about to bring a registration. -/
def IsRegistering (s : TaskSet κ ξ) (k : CallId) : Prop :=
  ∃ x ∈ s.calls, x.id = k ∧ ∃ r, x.phase.registration? = some r

theorem IsRegistering.of_setPhase {p q : CallPhase κ ξ} (hc : ⟨c, p⟩ ∈ s.calls)
    (hq : ∀ r, q.registration? = some r → ∃ r', p.registration? = some r') :
    IsRegistering (s.setPhase c q) k → IsRegistering s k := by
  rintro ⟨x, hx, hid, r, hr⟩
  rcases mem_setPhase hx with rfl | ⟨hx, _⟩
  · exact ⟨_, hc, hid, hq r hr⟩
  · exact ⟨x, hx, hid, r, hr⟩

theorem IsRegistering.mono (hc : ∀ x ∈ t.calls, x ∈ s.calls) :
    IsRegistering t k → IsRegistering s k := fun ⟨x, hx, h⟩ => ⟨x, hc x hx, h⟩

/-- No move makes a call bring a registration that did not before. -/
theorem Move.registering (h : Move s d t) : IsRegistering t k → IsRegistering s k := by
  cases h with
  | goesOn h => exact IsRegistering.mono fun x hx => h.calls ▸ hx
  | shifts hc hp =>
    refine IsRegistering.of_setPhase hc fun r hr => ?_
    obtain ⟨r', hr', _⟩ := hp.within.registration r hr
    exact ⟨r', hr'⟩
  | opens hc hl =>
    refine IsRegistering.of_setPhase (s := { s with lifecycle := .starting }) hc fun r hr => ?_
    simp at hr
  | marks id => exact fun h => h
  | finishes c => exact IsRegistering.mono fun x hx => mem_without hx
  | starts p hc hl =>
    refine IsRegistering.mono fun x hx => ?_
    rw [(startLoops_same _ _).2.1] at hx
    exact mem_without hx
  | givesUp hc hl => exact IsRegistering.mono fun x hx => mem_without hx
  | comesLate hc hu => exact IsRegistering.of_setPhase hc fun _ _ => ⟨_, rfl⟩
  | prepares hc hl => exact IsRegistering.of_setPhase hc nofun
  | enrolls hc hp hr =>
    refine IsRegistering.mono fun x hx => ?_
    rw [(enroll_same _ _ _).2.1] at hx
    exact mem_without hx
  | refuses hc h => exact IsRegistering.mono fun x hx => mem_without (h.calls ▸ hx)
  | removes way id hr hw h _ => exact IsRegistering.mono fun x hx => h.calls ▸ hx
  | displaces id hr hl h => exact IsRegistering.mono fun x hx => h.calls ▸ hx
  | demolishes h _ => exact IsRegistering.mono fun x hx => h.calls ▸ hx
  | drops hc h _ => exact IsRegistering.mono fun x hx => h.calls ▸ hx

/-- A ticket comes in with a call that brings it. -/
theorem Move.comesIn (h : Move s d t) (hs : Sound us s) (hk : k ∈ t.tickets) :
    k ∈ s.tickets ∨ IsRegistering s k := by
  have hremoved : ∀ {torn : List TaskRef} {reg : Registry κ ξ} {lc : Lifecycle} {dr : Bool},
      GoesOn torn { s with registry := reg, lifecycle := lc, dropped := dr } t →
      List.Sublist reg s.registry → k ∈ s.tickets := by
    intro torn reg lc dr h hsub
    rw [h.tickets] at hk
    exact (hsub.map _).subset hk
  cases d with
  | none =>
    rw [tickets_of_stays h.quiet.1] at hk
    exact Or.inl hk
  | some d =>
    cases h with
    | comesLate hc hu => exact Or.inl hk
    | prepares hc hl => exact Or.inl hk
    | @enrolls c p r hc hp hr =>
      have hreg : p.registration? = some r := by rcases hp with rfl | rfl <;> rfl
      rcases ((enroll_same s r c).2.2.2 k).1 hk with rfl | hk
      · exact Or.inr ⟨_, hc, (hs.own _ hc r hreg).symm, r, hreg⟩
      · exact Or.inl hk
    | refuses hc h =>
      rw [h.tickets] at hk
      exact Or.inl hk
    | removes way id hr hw h _ => exact Or.inl (hremoved h List.filter_sublist)
    | displaces id hr hl h => exact Or.inl (hremoved h List.filter_sublist)
    | demolishes h _ => exact Or.inl (hremoved h (List.nil_sublist _))
    | drops hc h _ => exact Or.inl (hremoved h (List.nil_sublist _))

/-- The ticket is known, not in the registry, and not on its way there. -/
structure IsGone (us : List CallId) (s : TaskSet κ ξ) (k : CallId) : Prop where
  known : k ∈ us
  absent : k ∉ s.tickets
  settled : ¬IsRegistering s k

theorem Move.gone (h : Move s d t) (hs : Sound us s) (hk : IsGone us s k) : IsGone us t k where
  known := hk.known
  absent hmem := (h.comesIn hs hmem).elim hk.absent hk.settled
  settled hreg := hk.settled (h.registering hreg)

theorem Course.gone (h : Course s d t) : Sound us s → IsGone us s k → IsGone us t k :=
  h.keepsSound Move.gone

/-- A registration that leaves is gone. -/
theorem Course.gone_of_left (h : Course s d t) (hs : Sound us s) (hk : k ∈ s.tickets)
    (hk' : k ∉ t.tickets) : IsGone us t k := by
  have hsettled : ¬IsRegistering s k := by
    rintro ⟨x, hx, rfl, r, hr⟩
    exact (hs.new x hx r hr).1 hk
  have hkept : ∀ {s t : TaskSet κ ξ} {d : Option Deed}, Move s d t → ¬IsRegistering s k →
      ¬IsRegistering t k := fun hm hno hr => hno (hm.registering hr)
  exact ⟨hs.registered k hk, hk', h.keeps hkept hsettled⟩

/-! ## Histories -/

/-- A call that enters has a number of its own. -/
theorem IsGone.entered {e : SetEvent κ ξ} (hall : allows h s e = true)
    (hk : IsGone (begun h) s k) : IsGone (begun (h ++ [⟨s, e⟩])) (s.entered e) k := by
  rw [begun_append]
  refine ⟨List.mem_append_left _ hk.known, ?_, ?_⟩
  · rw [tickets_of_stays (stays_entered s e).1]
    exact hk.absent
  · cases e with
    | begin c request p =>
      rintro ⟨x, hx, hid, hr⟩
      rcases List.mem_append.1 hx with hx | hx
      · exact hk.settled ⟨x, hx, hid, hr⟩
      · obtain rfl := List.mem_singleton.1 hx
        obtain rfl : c = k := hid
        exact (allows_begin.1 hall).2 hk.known
    | _ => exact hk.settled

theorem gone_of_run (hrun : (setSystem κ ξ).Run h s) : HasLeft h k → IsGone (begun h) s k := by
  induction hrun with
  | start _ => exact fun ⟨o, ho, _⟩ => absurd ho List.not_mem_nil
  | @next h s e hrun hall ih =>
    have hs := sound_of_run hrun
    obtain ⟨d, hcourse, -⟩ := course_of_perform hs hall
    rintro ⟨o, ho, hk, hk'⟩
    have hgone : IsGone (begun (h ++ [⟨s, e⟩])) (s.perform e).1 k := by
      rcases List.mem_append.1 ho with ho | ho
      · exact hcourse.gone (hs.entered hall) ((ih ⟨o, ho, hk, hk'⟩).entered hall)
      · obtain rfl := List.mem_singleton.1 ho
        refine hcourse.gone_of_left (hs.entered hall) ?_ hk'
        rw [tickets_of_stays (stays_entered s e).1]
        exact hk
    exact ⟨hgone.known, hgone.absent, hgone.settled⟩

/-- A ticket that has left the registry does not come back. -/
theorem not_mem_of_hasLeft (hrun : (setSystem κ ξ).Run h s) (hk : HasLeft h k) : k ∉ s.tickets :=
  (gone_of_run hrun hk).absent

end TaskSet

end Overseer
