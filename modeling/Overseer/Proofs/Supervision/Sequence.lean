import Overseer.Proofs.Supervision.Polling
import Overseer.Proofs.Supervision.Teardown

/-!
# Sequences

A sequence is a set whose stages are registered at positions. The position is the only priority of
a stage (`Request.IsStage`), so stages are visited by ascending position, and a stage is refused
whose position is taken. A late stage is initialized between two looks at the registry, with no
lock held, and others may come and go meanwhile.

`staged_of_run` says that the positions of what is registered ascend strictly all the same, and
`Takes.settles` what a registration comes to. `sequence_of_run` puts both together. A stage is
admitted if its position and its task are free when the call comes to decide it. Of several that
ask for one position at a time more than one may be admitted, if the first is gone when the second
comes back: `two_admitted` is a run in which that happens.
-/

namespace Overseer

variable {κ ξ : Type}

/-- A request as a sequence makes it: a stage has a position, which is its only priority. -/
def Request.IsStage : Request κ ξ → Prop
  | .register _ _ options order _ => order.isSome = true ∧ options.priorities = order.toList
  | _ => True

instance : (request : Request κ ξ) → Decidable request.IsStage
  | .register _ _ options order _ =>
    inferInstanceAs (Decidable (order.isSome = true ∧ options.priorities = order.toList))
  | .init => inferInstanceAs (Decidable True)
  | .destroy => inferInstanceAs (Decidable True)

/-- Options without priorities that are given a position are those of a stage. -/
theorem Request.isStage_withPriority {o : RegisterOptions PoolId κ} (ho : o.priorities = [])
    (task : TaskRef) (args : List Argument) (n : Nat) (extra : ξ) :
    (Request.register task args (o.withPriority n) (some n) extra).IsStage :=
  ⟨rfl, by rw [RegisterOptions.withPriority, ho]; rfl⟩

namespace SetEvent

def request? : SetEvent κ ξ → Option (Request κ ξ)
  | .begin _ request _ => some request
  | _ => none

/-- The call that an event begins, with the position for which it asks. -/
def asks? : SetEvent κ ξ → Option (CallId × Nat)
  | .begin c (.register _ _ _ order _) _ => order.map (c, ·)
  | _ => none

theorem begins?_of_asks? {e : SetEvent κ ξ} {c : CallId} {n : Nat} (h : e.asks? = some (c, n)) :
    e.begins? = some c := by
  unfold asks? at h
  split at h
  · obtain ⟨m, -, hm⟩ := Option.map_eq_some_iff.1 h
    exact congrArg some (congrArg Prod.fst hm)
  · contradiction

end SetEvent

/-- What a sequence knows of a registration: its call, its position and its key. -/
structure Place where
  ticket : CallId
  order : Option Nat
  sortKey : Nat

def Registration.place (r : Registration κ ξ) : Place := ⟨r.ticket, r.order, r.sortKey⟩

/-- A registration comes in before the first that has a larger key. -/
theorem Registry.insert_ascending {reg : Registry κ ξ} {r : Registration κ ξ}
    (h : List.Pairwise (fun a b => a.sortKey < b.sortKey) reg)
    (hne : ∀ a ∈ reg, r.sortKey ≠ a.sortKey) :
    List.Pairwise (fun a b => a.sortKey < b.sortKey) (reg.insert r) :=
  insert_of_pairwise h (h.imp Nat.le_of_lt)
    (fun a ha hle => Nat.lt_of_le_of_ne hle (hne a ha).symm) fun _ _ hless => hless

namespace TaskSet

variable {s t : TaskSet κ ξ} {c d : CallId} {p : CallPhase κ ξ} {turn : CallTurn} {n : Nat}
  {r : Registration κ ξ} {h : List (SetOccurrence κ ξ)} {o : SetOccurrence κ ξ}
  {e : SetEvent κ ξ}

/-- Every request of the history is one of a sequence. -/
def OfSequence (h : List (SetOccurrence κ ξ)) : Prop :=
  ∀ o ∈ h, ∀ request ∈ o.event.request?, request.IsStage

instance : Decidable (OfSequence h) :=
  inferInstanceAs (Decidable (∀ o ∈ h, ∀ request ∈ o.event.request?, request.IsStage))

/-- The call has asked for the position. -/
def Asks (h : List (SetOccurrence κ ξ)) (c : CallId) (n : Nat) : Prop :=
  ∃ o ∈ h, o.event.asks? = some (c, n)

instance : Decidable (Asks h c n) :=
  inferInstanceAs (Decidable (∃ o ∈ h, o.event.asks? = some (c, n)))

theorem Asks.append (ha : Asks h c n) (h' : List (SetOccurrence κ ξ)) : Asks (h ++ h') c n := by
  obtain ⟨o, ho, hasks⟩ := ha
  exact ⟨o, List.mem_append_left _ ho, hasks⟩

/-- A call begins once. -/
theorem begin_unique (hrun : (setSystem κ ξ).Run h s) {o' : SetOccurrence κ ξ} (ho : o ∈ h)
    (ho' : o' ∈ h) (hb : o.event.begins? = some c) (hb' : o'.event.begins? = some c) :
    o.event = o'.event := by
  induction hrun with
  | start _ => exact absurd ho List.not_mem_nil
  | @next h s e hrun hall ih =>
    -- a call that has begun before does not begin again
    have hnew : ∀ {x : SetOccurrence κ ξ}, x ∈ h → x.event.begins? = some c →
        e.begins? ≠ some c := by
      intro x hx hxb heb
      cases e with
      | begin d request b =>
        obtain rfl := Option.some.inj heb
        have hall : allows h s (.begin d request b) = true := hall
        exact (allows_begin.1 hall).2 (List.mem_filterMap.2 ⟨x, hx, hxb⟩)
      | _ => contradiction
    rcases List.mem_append.1 ho with ho | ho <;> rcases List.mem_append.1 ho' with ho' | ho'
    · exact ih ho ho'
    · obtain rfl := List.mem_singleton.1 ho'
      exact absurd hb' (hnew ho hb)
    · obtain rfl := List.mem_singleton.1 ho
      exact absurd hb (hnew ho' hb')
    · obtain rfl := List.mem_singleton.1 ho
      obtain rfl := List.mem_singleton.1 ho'
      rfl

theorem Asks.unique (hrun : (setSystem κ ξ).Run h s) {m : Nat} (ha : Asks h c n)
    (ha' : Asks h c m) : n = m := by
  obtain ⟨o, ho, hn⟩ := ha
  obtain ⟨o', ho', hm⟩ := ha'
  rw [begin_unique hrun ho ho' (SetEvent.begins?_of_asks? hn) (SetEvent.begins?_of_asks? hm)] at hn
  exact congrArg Prod.snd (Option.some.inj (hn.symm.trans hm))

/-! ## Positions -/

/-- Who is registered where, as visited. -/
def places (s : TaskSet κ ξ) : List Place := List.map (·.place) s.registry

theorem pairwise_places : (s.places.Pairwise fun x y => x.sortKey < y.sortKey) ↔
    List.Pairwise (fun a b => a.sortKey < b.sortKey) s.registry := by
  rw [places, List.pairwise_map]
  rfl

/-- A stage is sorted by the position that its call has asked for. -/
def IsStage (h : List (SetOccurrence κ ξ)) (x : Place) : Prop :=
  x.order = some x.sortKey ∧ Asks h x.ticket x.sortKey

/-- Stages have positions, which ascend strictly. -/
structure Staged (h : List (SetOccurrence κ ξ)) (s : TaskSet κ ξ) : Prop where
  stages : ∀ x ∈ s.places, IsStage h x
  coming : ∀ x ∈ s.calls, ∀ r, x.phase.registration? = some r → IsStage h r.place
  ascending : s.places.Pairwise fun x y => x.sortKey < y.sortKey

theorem Staged.append (hs : Staged h s) (h' : List (SetOccurrence κ ξ)) : Staged (h ++ h') s :=
  ⟨fun x hx => ⟨(hs.stages x hx).1, (hs.stages x hx).2.append h'⟩,
    fun x hx r hr => ⟨(hs.coming x hx r hr).1, (hs.coming x hx r hr).2.append h'⟩, hs.ascending⟩

/-- Calls and stages may go. -/
theorem Staged.fewer (hs : Staged h s) (hplaces : t.places.Sublist s.places)
    (hcalls : ∀ x ∈ t.calls, x ∈ s.calls) : Staged h t :=
  ⟨fun x hx => hs.stages x (hplaces.subset hx), fun x hx => hs.coming x (hcalls x hx),
    hs.ascending.sublist hplaces⟩

theorem Staged.same (hs : Staged h s) (hplaces : t.places = s.places)
    (hcalls : ∀ x ∈ t.calls, x ∈ s.calls) : Staged h t :=
  hs.fewer (by rw [hplaces]) hcalls

theorem Staged.setPhase (hs : Staged h s)
    (hp : ∀ r, p.registration? = some r → IsStage h r.place) : Staged h (s.setPhase c p) := by
  refine ⟨hs.stages, fun x hx r hr => ?_, hs.ascending⟩
  rcases mem_setPhase hx with rfl | ⟨hx, -⟩
  · exact hp r hr
  · exact hs.coming x hx r hr

theorem refusal?_eq_none : s.refusal? r = none ↔ s.lifecycle ≠ .terminated ∧
    s.registry.has r.task.id = false ∧ ∀ n, r.order = some n → s.registry.hasOrder n = false := by
  unfold refusal?
  cases hl : s.lifecycle == .terminated with
  | true => simp_all
  | false =>
    cases hhas : s.registry.has r.task.id with
    | true => simp_all
    | false => cases hn : r.order <;> simp_all

/-- A stage comes in where nobody is. -/
theorem Staged.enroll (hs : Staged h s) (hc : ⟨c, p⟩ ∈ s.calls) (hp : p.registration? = some r)
    (hr : s.refusal? r = none) : Staged h ((s.enroll r).without c) := by
  obtain ⟨u, hgo, heq⟩ := enroll_without s r c
  have hr' : IsStage h r.place := hs.coming _ hc r hp
  have hfree : ∀ a ∈ s.registry, r.sortKey ≠ a.sortKey := by
    intro a ha hsame
    have hnobody := (refusal?_eq_none.1 hr).2.2 r.sortKey hr'.1
    have ha' : a.order = some a.sortKey := (hs.stages _ (List.mem_map_of_mem ha)).1
    simp only [Registry.hasOrder, List.any_eq_false] at hnobody
    exact hnobody a ha (by simp [ha', hsame])
  have hadmitted : Staged h (s.admitted r c) := by
    refine ⟨fun x hx => ?_, fun x hx => hs.coming x (mem_without hx), ?_⟩
    · obtain ⟨a, ha, rfl⟩ := List.mem_map.1 hx
      rcases Registry.mem_insert.1 ha with rfl | ha
      · exact hr'
      · exact hs.stages _ (List.mem_map_of_mem ha)
    · exact pairwise_places.2 (Registry.insert_ascending (pairwise_places.1 hs.ascending) hfree)
  have hu : Staged h u := hadmitted.same (by rw [places, hgo.registry]; rfl)
    fun x hx => hgo.calls ▸ hx
  rw [heq]
  split
  · exact hu.same (map_startLoop (fun _ _ _ => rfl) u r.task.id)
      fun x hx => (startLoop_same u r.task.id).2.1 ▸ hx
  · exact hu

theorem Move.staged {d : Option Deed} (hm : Move s d t) (hs : Staged h s) : Staged h t := by
  have hset : ∀ {c : CallId} {p : CallPhase κ ξ}, p.registration? = none →
      Staged h (s.setPhase c p) := fun hp => hs.setPhase fun r hr => nomatch hp.symm.trans hr
  have hremove : ∀ {torn : List TaskRef} {id : TaskId},
      GoesOn torn { s with registry := s.registry.remove id } t → Staged h t := by
    intro torn id hgo
    refine hs.fewer ?_ fun x hx => hgo.calls ▸ hx
    rw [places, hgo.registry]
    exact List.filter_sublist.map _
  have hempty : t.registry = [] → t.calls = s.calls → Staged h t := by
    intro hreg hcalls
    refine hs.fewer ?_ fun x hx => hcalls ▸ hx
    rw [places, hreg]
    exact List.nil_sublist _
  cases hm with
  | goesOn hgo => exact hs.same (by rw [places, hgo.registry]; rfl) fun x hx => hgo.calls ▸ hx
  | @shifts c p q hc hshift =>
    cases hshift with
    | comeBack r =>
      refine hs.setPhase fun r' hr' => ?_
      obtain rfl := Option.some.inj hr'
      exact hs.coming _ hc r rfl
    | goOn current rest => exact hset (by simp)
    | _ => exact hset rfl
  | opens hc hl =>
    have hopen : Staged h ({ s with lifecycle := .starting } : TaskSet κ ξ) :=
      hs.same rfl fun x hx => hx
    exact hopen.setPhase (by simp)
  | marks id => exact hs.same (Registry.map_modify fun _ => rfl) fun x hx => hx
  | finishes c => exact hs.same rfl fun x hx => mem_without hx
  | starts b hc hl =>
    refine hs.same (map_startLoops (fun _ _ _ => rfl) _ _) fun x hx => ?_
    rw [(startLoops_same _ _).2.1] at hx
    exact mem_without hx
  | givesUp hc hl => exact hs.same rfl fun x hx => mem_without hx
  | comesLate hc hu =>
    refine hs.setPhase fun r' hr' => ?_
    obtain rfl := Option.some.inj hr'
    exact hs.coming _ hc _ rfl
  | prepares hc hl => exact hset rfl
  | enrolls hc hp hr => exact hs.enroll hc (by rcases hp with rfl | rfl <;> rfl) hr
  | refuses hc hgo =>
    exact hs.same (by rw [places, hgo.registry]; rfl) fun x hx => mem_without (hgo.calls ▸ hx)
  | removes _ _ _ _ hgo _ => exact hremove hgo
  | displaces _ _ _ hgo => exact hremove hgo
  | demolishes hgo _ => exact hempty hgo.registry hgo.calls
  | drops _ hgo _ => exact hempty hgo.registry hgo.calls

theorem Staged.entered (hs : Staged h s) (hseq : OfSequence (h ++ [⟨s, e⟩])) :
    Staged (h ++ [⟨s, e⟩]) (s.entered e) := by
  have hs' := hs.append [⟨s, e⟩]
  cases e with
  | begin c request b =>
    refine ⟨hs'.stages, fun x hx r hr => ?_, hs'.ascending⟩
    rcases List.mem_append.1 hx with hx | hx
    · exact hs'.coming x hx r hr
    obtain rfl := List.mem_singleton.1 hx
    have hmem : ⟨s, .begin c request b⟩ ∈ h ++ [⟨s, .begin c request b⟩] :=
      List.mem_append_right _ (List.mem_singleton_self _)
    have hstage : request.IsStage := hseq _ hmem request rfl
    cases request with
    | register task args options order extra =>
      obtain ⟨hsome, hpriorities⟩ := hstage
      obtain ⟨n, rfl⟩ := Option.isSome_iff_exists.1 hsome
      obtain rfl := Option.some.inj hr
      have hkey : options.sortKey = n := by rw [RegisterOptions.sortKey, hpriorities]; rfl
      exact ⟨congrArg some hkey.symm, _, hmem, congrArg (fun m => some (c, m)) hkey.symm⟩
    | init => contradiction
    | destroy => contradiction
  | _ => exact hs'

/-- The positions of what is registered ascend strictly after any history of a sequence. -/
theorem staged_of_run (hrun : (setSystem κ ξ).Run h s) (hseq : OfSequence h) : Staged h s := by
  induction hrun with
  | start hstart =>
    obtain ⟨name, pool, rfl⟩ := hstart
    exact ⟨by simp [places], by simp, List.Pairwise.nil⟩
  | @next h s e hrun hall ih =>
    have hs := ih fun o ho => hseq o (List.mem_append_left _ ho)
    obtain ⟨d, hcourse, -⟩ := course_of_perform (sound_of_run hrun) hall
    have hnext := hcourse.keeps (P := Staged (h ++ [⟨s, e⟩])) Move.staged (hs.entered hseq)
    exact ⟨hnext.stages, hnext.coming, hnext.ascending⟩

/-- A sequence is what it should be: its stages are visited by strictly ascending position, each
at the position that its call has asked for, no task is registered twice, and a look-up finds the
stage at a position. -/
structure IsSequence (h : List (SetOccurrence κ ξ)) (s : TaskSet κ ξ) : Prop where
  ascending : ∃ ns : List Nat, List.map (·.order) s.registry = ns.map some ∧ ns.Pairwise (· < ·)
  asked : ∀ r ∈ s.registry, ∀ n, r.order = some n → Asks h r.ticket n
  distinct : (List.map (·.task.id) s.registry).Nodup
  byOrder : ∀ n r, s.registry.byOrder? n = some r ↔ r ∈ s.registry ∧ r.order = some n

theorem Staged.order (hs : Staged h s) : ∀ a ∈ s.registry, a.order = some a.sortKey :=
  fun _ ha => (hs.stages _ (List.mem_map_of_mem ha)).1

/-- Nobody else is at the position of a stage. -/
theorem Staged.eq_of_order (hs : Staged h s) {a b : Registration κ ξ} (ha : a ∈ s.registry)
    (hb : b ∈ s.registry) (hsame : a.order = b.order) : a = b := by
  have hkeys : (List.map (·.sortKey) s.registry).Nodup :=
    List.pairwise_map.2 ((pairwise_places.1 hs.ascending).imp Nat.ne_of_lt)
  rw [hs.order a ha, hs.order b hb] at hsame
  exact List.inj_on_of_nodup_map hkeys ha hb (Option.some.inj hsame)

theorem Staged.isSequence (hs : Staged h s) (hsound : Sound (begun h) s) : IsSequence h s where
  ascending := by
    refine ⟨List.map (·.sortKey) s.registry, ?_, ?_⟩
    · rw [List.map_map]
      exact List.map_congr_left hs.order
    · exact List.pairwise_map.2 (pairwise_places.1 hs.ascending)
  asked r hr n hn := by
    have hasks : Asks h r.ticket r.sortKey := (hs.stages _ (List.mem_map_of_mem hr)).2
    obtain rfl : n = r.sortKey := Option.some.inj (hn.symm.trans (hs.order r hr))
    exact hasks
  distinct := hsound.tasks
  byOrder n r := by
    constructor
    · exact fun hfound => ⟨List.mem_of_find?_eq_some hfound, by simpa using List.find?_some hfound⟩
    · rintro ⟨hr, hn⟩
      cases hfound : s.registry.byOrder? n with
      | none => simpa [hn] using List.find?_eq_none.1 hfound r hr
      | some a =>
        have ha : a.order = some n := by simpa using List.find?_some hfound
        rw [hs.eq_of_order (List.mem_of_find?_eq_some hfound) hr (ha.trans hn.symm)]

/-! ## What a registration comes to -/

/-- A late registration that is refused is torn down. -/
def lost (p : CallPhase κ ξ) (r : Registration κ ξ) : List TaskRef :=
  if p.isLate then [r.task] else []

theorem Takes.settles {result : Except SupervisionError Unit} (ht : Takes c s p t turn)
    (hr : p.registration? = some r) (hret : turn = .returned result) :
    (result = .ok () ∧ s.refusal? r = none ∧ r.ticket ∈ t.tickets ∧ t.tornDown = s.tornDown) ∨
      ∃ e, result = .error e ∧ s.refusal? r = some e ∧ t.tornDown = s.tornDown ++ lost p r := by
  induction ht with
  | alike ha _ ih =>
    have hrefusal : ∀ u v : TaskSet κ ξ, v.lifecycle = u.lifecycle → v.registry = u.registry →
        v.refusal? r = u.refusal? r := by
      intro u v hl hreg
      simp [refusal?, hl, hreg]
    have htorn := ha.tornDown
    rw [List.append_nil] at htorn
    rw [← htorn, ← hrefusal _ _ ha.lifecycle ha.registry]
    exact ih hr hret
  | expires _ hk _ =>
    rename_i p _ _
    cases p <;> contradiction
  | refuses he ht =>
    obtain rfl := Option.some.inj hr
    refine .inr ⟨_, (CallTurn.returned.inj hret).symm, he, ?_⟩
    exact ht.tornDown
  | @enrolls s t p r' hphase he ht =>
    obtain ⟨-, -, htorn, htickets⟩ := enroll_same s r' c
    obtain rfl : r' = r := by rcases hphase with ⟨rfl, -⟩ | rfl <;> exact Option.some.inj hr
    refine .inl ⟨(CallTurn.returned.inj hret).symm, he, ?_, ?_⟩
    · rw [ht.tickets, htickets]
      exact .inl rfl
    · rw [ht.tornDown, htorn, List.append_nil]
  | loses he ht =>
    obtain rfl := Option.some.inj hr
    exact .inr ⟨_, (CallTurn.returned.inj hret).symm, he, ht.tornDown⟩
  | _ => contradiction

theorem refusal?_eq_some {x : SupervisionError} (hx : s.refusal? r = some x) :
    (x = .terminated ∧ s.lifecycle = .terminated) ∨
    (s.lifecycle ≠ .terminated ∧ x = .duplicateRegistration r.task.name ∧
      ∃ a ∈ s.registry, a.task.id = r.task.id) ∨
    (s.lifecycle ≠ .terminated ∧ s.registry.has r.task.id = false ∧
      ∃ n, x = .duplicateOrder n ∧ r.order = some n ∧ ∃ a ∈ s.registry, a.order = some n) := by
  unfold refusal? at hx
  split at hx
  · rename_i hl
    exact .inl ⟨(Option.some.inj hx).symm, by simpa using hl⟩
  · rename_i hl
    have hl : s.lifecycle ≠ .terminated := by simpa using hl
    split at hx
    · rename_i hhas
      exact .inr (.inl ⟨hl, (Option.some.inj hx).symm, by simpa [Registry.has] using hhas⟩)
    · rename_i hhas
      split at hx
      · contradiction
      · rename_i n hn
        split at hx
        · rename_i htaken
          refine .inr (.inr ⟨hl, by simpa using hhas, n, (Option.some.inj hx).symm, hn, ?_⟩)
          simpa [Registry.hasOrder] using htaken
        · contradiction

/-- What the registration `r` comes to when its call returns from phase `p`. -/
inductive Settles (o : SetOccurrence κ ξ) (p : CallPhase κ ξ) (r : Registration κ ξ) :
    Except SupervisionError Unit → Prop
  | admitted : o.before.lifecycle ≠ .terminated →
      (∀ a ∈ o.before.registry, a.task.id ≠ r.task.id ∧ a.order ≠ r.order) →
      r.ticket ∈ ((setSystem κ ξ).after o).tickets → tearsDown o = [] → Settles o p r (.ok ())
  | terminated : o.before.lifecycle = .terminated → tearsDown o = lost p r →
      Settles o p r (.error .terminated)
  | duplicate {a : Registration κ ξ} : o.before.lifecycle ≠ .terminated →
      a ∈ o.before.registry → a.task.id = r.task.id → tearsDown o = lost p r →
      Settles o p r (.error (.duplicateRegistration r.task.name))
  | taken {a : Registration κ ξ} {n : Nat} : o.before.lifecycle ≠ .terminated →
      (∀ b ∈ o.before.registry, b.task.id ≠ r.task.id) → a ∈ o.before.registry →
      r.order = some n → a.order = some n → tearsDown o = lost p r →
      Settles o p r (.error (.duplicateOrder n))
  /-- The task of a late registration could not be initialized. -/
  | fails {source : Fault} {b : Bool} : o.event = .initialized r.ticket (.error source) b →
      tearsDown o = [] → Settles o p r (.error (.initFailed r.task.name source))

theorem Gives.settles {result : Except SupervisionError Unit} (hgives : Gives s e t turn)
    (hs : Sound (begun h) s) (ho : Orderly s) (hall : allows h s e = true)
    (hc : e.caller? = some c) (hp : ⟨c, p⟩ ∈ (s.entered e).calls)
    (hr : p.registration? = some r) (hret : turn = .returned result) :
    ((result = .ok () ∧ s.refusal? r = none ∧ r.ticket ∈ t.tickets ∧ t.tornDown = s.tornDown) ∨
      ∃ x, result = .error x ∧ s.refusal? r = some x ∧ t.tornDown = s.tornDown ++ lost p r) ∨
    ∃ source b, e = .initialized c (.error source) b ∧ t.tornDown = s.tornDown ∧
      result = .error (.initFailed r.task.name source) := by
  cases hgives with
  | @begins d request b _ _ ht =>
    obtain rfl := Option.some.inj hc
    have hphase : p = request.phase d := by
      rcases List.mem_append.1 hp with hp | hp
      · exact absurd (hs.calls _ hp) (allows_begin.1 hall).2
      · exact (Call.mk.inj (List.mem_singleton.1 hp)).2
    subst hphase
    exact .inl (ht.settles hr hret)
  | polls hp' ht =>
    obtain rfl := Option.some.inj hc
    obtain rfl := ho.phase_eq hp hp'
    exact .inl (ht.settles hr hret)
  | @comesBack d r' b _ _ hp' ht =>
    obtain rfl := Option.some.inj hc
    obtain rfl := ho.phase_eq hp hp'
    obtain rfl := Option.some.inj hr
    exact .inl (ht.settles (r := { r' with state := .initialized }) rfl hret)
  | @breaks d r' source b _ hp' ht =>
    obtain rfl := Option.some.inj hc
    obtain rfl := ho.phase_eq hp hp'
    obtain rfl := Option.some.inj hr
    refine .inr ⟨source, b, rfl, ?_, (CallTurn.returned.inj hret).symm⟩
    exact ht.tornDown.trans (List.append_nil _)
  | goesOn hp' _ =>
    obtain rfl := Option.some.inj hc
    obtain rfl := ho.phase_eq hp hp'
    contradiction
  | aborts hp' _ =>
    obtain rfl := Option.some.inj hc
    obtain rfl := ho.phase_eq hp hp'
    contradiction
  | misses _ _ => contradiction

theorem settles_of_returned {result : Except SupervisionError Unit}
    (hrun : (setSystem κ ξ).Run h s) (hall : allows h s e = true)
    (hp : ⟨c, p⟩ ∈ (s.entered e).calls) (hr : p.registration? = some r)
    (hplaced : r.order = some n) (hticket : r.ticket = c) (hret : Returns ⟨s, e⟩ c result) :
    Settles ⟨s, e⟩ p r result := by
  obtain ⟨hc, hanswer⟩ := hret
  have hs := sound_of_run hrun
  have hclean : s.tornDown = [] := by simp [tornDown, notices_of_run hrun]
  obtain ⟨turn, hturn, hgives⟩ := gives_of_perform hs hall hc
  have hreturned : turn = .returned result := SetAnswer.call.inj (hturn.symm.trans hanswer)
  rcases hgives.settles hs (orderly_of_run hrun) hall hc hp hr hreturned with
    (⟨rfl, hno, hin, htorn⟩ | ⟨x, rfl, hx, htorn⟩) | ⟨source, b, rfl, htorn, rfl⟩
  · obtain ⟨hl, hhas, hfree⟩ := refusal?_eq_none.1 hno
    refine .admitted hl (fun a ha => ⟨Registry.has_eq_false.1 hhas a ha, fun hsame => ?_⟩) hin
      (htorn.trans hclean)
    have htaken := hfree n hplaced
    simp only [Registry.hasOrder, List.any_eq_false] at htaken
    exact htaken a ha (by simp [hsame, hplaced])
  · rw [hclean, List.nil_append] at htorn
    rcases refusal?_eq_some hx with
      ⟨rfl, hl⟩ | ⟨hl, rfl, a, ha, hid⟩ | ⟨hl, hhas, m, rfl, hm, a, ha, hord⟩
    · exact .terminated hl htorn
    · exact .duplicate hl ha hid htorn
    · exact .taken hl (Registry.has_eq_false.1 hhas) ha hm hord htorn
  · exact .fails (by rw [hticket]) (htorn.trans hclean)

/-- A sequence keeps its structure under any history, and of several stages that have asked for
one position at most one is registered. A stage is admitted if neither its position nor its task
is registered and the sequence is not terminated when the call decides it. Otherwise it hears
why not, and one that was initialized late is torn down. -/
theorem sequence_of_run (hrun : (setSystem κ ξ).Run h s) (hseq : OfSequence h) :
    IsSequence h s ∧
    (∀ c d n, Asks h c n → Asks h d n → c ∈ s.tickets → d ∈ s.tickets → c = d) ∧
    ∀ o ∈ h, ∀ c p r result, ⟨c, p⟩ ∈ (o.before.entered o.event).calls →
      p.registration? = some r → Returns o c result → Settles o p r result := by
  have hstaged := staged_of_run hrun hseq
  have hsequence := hstaged.isSequence (sound_of_run hrun)
  refine ⟨hsequence, fun c d n hc hd hc' hd' => ?_, fun o ho c p r result hp hr hret => ?_⟩
  · obtain ⟨a, ha, rfl⟩ := mem_tickets.1 hc'
    obtain ⟨b, hb, rfl⟩ := mem_tickets.1 hd'
    have hposition : ∀ a ∈ s.registry, Asks h a.ticket n → a.order = some n := fun a ha hn => by
      rw [hstaged.order a ha,
        hn.unique hrun (hsequence.asked a ha _ (hstaged.order a ha))]
    rw [hstaged.eq_of_order ha hb ((hposition a ha hc).trans (hposition b hb hd).symm)]
  · obtain ⟨pre, post, heq⟩ := List.append_of_mem ho
    obtain ⟨hpre, hall, -⟩ := hrun.split heq
    have hbefore := staged_of_run hpre fun o' ho' =>
      hseq o' (heq ▸ List.mem_append_left _ ho')
    have hentered := hbefore.entered (e := o.event) fun o' ho' => hseq o' (by
      rw [heq, List.append_cons]
      exact List.mem_append_left _ ho')
    exact settles_of_returned hpre hall hp hr (hentered.coming _ hp r hr).1
      (((sound_of_run hpre).entered hall).own _ hp r hr) hret

/-- Two stages ask for one position while a third is at another. The first comes in, and the second
hears that the position is taken. -/
theorem sequence_of_run_taken : ∃ (h : List (SetOccurrence Unit Unit)) (s : TaskSet Unit Unit)
    (o : SetOccurrence Unit Unit), (setSystem Unit Unit).Run h s ∧ OfSequence h ∧ o ∈ h ∧
    Returns o 3 (.error (.duplicateOrder 1)) ∧ tearsDown o = [⟨2, "c"⟩] ∧
    IsSequence h s ∧
    (∀ c d n, Asks h c n → Asks h d n → c ∈ s.tickets → d ∈ s.tickets → c = d) ∧
    ∀ o ∈ h, ∀ c p r result, ⟨c, p⟩ ∈ (o.before.entered o.event).calls →
      p.registration? = some r → Returns o c result → Settles o p r result := by
  obtain ⟨h, s, hrun, hcheck⟩ := System.exists_run_of_replay (S := setSystem Unit Unit)
    (starts_new "s" none)
    [.begin 0 (.register ⟨0, "a"⟩ [] (({} : RegisterOptions PoolId Unit).withPriority 2) (some 2)
        ()) false,
      .begin 1 .init false, .initialized 1 (.ok ()) false,
      .begin 2 (.register ⟨1, "b"⟩ [] (({} : RegisterOptions PoolId Unit).withPriority 1) (some 1)
        ()) false,
      .begin 3 (.register ⟨2, "c"⟩ [] (({} : RegisterOptions PoolId Unit).withPriority 1) (some 1)
        ()) false,
      .initialized 2 (.ok ()) false, .initialized 3 (.ok ()) false]
    (fun h _ => decide (OfSequence h) && h.any fun o =>
      decide (Returns o 3 (.error (.duplicateOrder 1))) && tearsDown o == [⟨2, "c"⟩])
    (by decide +kernel)
  simp only [Bool.and_eq_true, decide_eq_true_eq, beq_iff_eq, List.any_eq_true] at hcheck
  obtain ⟨hseq, o, ho, hret, htorn⟩ := hcheck
  exact ⟨h, s, o, hrun, hseq, ho, hret, htorn, sequence_of_run hrun hseq⟩

/-- Two stages are registered for one free position at a time. The first comes in and is
unregistered, and then the second comes in too. -/
theorem two_admitted : ¬ ∀ (h : List (SetOccurrence Unit Unit)) (s : TaskSet Unit Unit)
    (c d : CallId) (n : Nat) (o : SetOccurrence Unit Unit), (setSystem Unit Unit).Run h s →
    OfSequence h → Asks h c n → Asks h d n → c ≠ d → o ∈ h →
    c ∈ o.before.calls.map (·.id) → d ∈ o.before.calls.map (·.id) →
    o.before.registry.byOrder? n = none →
    ¬((∃ o ∈ h, Returns o c (.ok ())) ∧ ∃ o ∈ h, Returns o d (.ok ())) := by
  intro hclaim
  obtain ⟨h, s, hrun, hcheck⟩ := System.exists_run_of_replay (S := setSystem Unit Unit)
    (starts_new "s" none)
    [.begin 0 .init false,
      .begin 1 (.register ⟨0, "a"⟩ [] (({} : RegisterOptions PoolId Unit).withPriority 1) (some 1)
        ()) false,
      .begin 2 (.register ⟨1, "b"⟩ [] (({} : RegisterOptions PoolId Unit).withPriority 1) (some 1)
        ()) false,
      .initialized 1 (.ok ()) false, .unregister ⟨0, "a"⟩, .initialized 2 (.ok ()) false]
    (fun h _ => decide (OfSequence h) && decide (Asks h 1 1) && decide (Asks h 2 1) &&
      (h.any fun o => (o.before.calls.map (·.id)).contains 1 &&
        (o.before.calls.map (·.id)).contains 2 && (o.before.registry.byOrder? 1).isNone) &&
      (h.any fun o => decide (Returns o 1 (.ok ()))) &&
      h.any fun o => decide (Returns o 2 (.ok ())))
    (by decide +kernel)
  simp only [Bool.and_eq_true, decide_eq_true_eq, List.any_eq_true, List.contains_iff_mem,
    Option.isNone_iff_eq_none] at hcheck
  obtain ⟨⟨⟨⟨⟨hseq, hc⟩, hd⟩, o, ho, ⟨hc', hd'⟩, hfree⟩, hok⟩, hok'⟩ := hcheck
  exact hclaim h s 1 2 1 o hrun hseq hc hd (by decide) ho hc' hd' hfree ⟨hok, hok'⟩

end TaskSet

end Overseer
