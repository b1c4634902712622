import Overseer.Proofs.Supervision.Calls
import Overseer.Proofs.Supervision.Loops

/-!
# Events are courses

What an event does to the tasks of a set, read off the set before it and the answer:
`initTicket?` is the registration on whose behalf it begins an `init`, `lateRefusal?` the task of
a late registration that it refuses, `displaced?` the registration that a loop of another stay
has thrown out.

Every event is a course of the set (`course_of_perform`), after its call has entered if it
begins one (`entered`), and the deed of that course is the one that these functions name. So
`sound_of_run` : a set is sound after any history.
-/

namespace Overseer

variable {κ ξ : Type}

namespace TaskSet

/-- The registration on whose behalf an event begins an `init`. -/
def initTicket? (s : TaskSet κ ξ) (e : SetEvent κ ξ) : Option CallId :=
  match (s.perform e).2 with
  | .call turn => e.caller?.bind fun c => (s.perform e).1.turnInit? c turn
  | _ => none

/-- The task of a late registration that an event refuses after its `init` has succeeded. -/
def lateRefusal? (s : TaskSet κ ξ) (e : SetEvent κ ξ) : Option TaskRef :=
  match (s.perform e).2 with
  | .call turn =>
    turnRefusal? (e.resumes?.bind fun c => (s.call? c).bind (·.phase.late?)) turn
  | _ => none

/-- The set when the call that an event begins has entered. -/
def entered (s : TaskSet κ ξ) : SetEvent κ ξ → TaskSet κ ξ
  | .begin c request _ => s.addCall c (request.phase c)
  | _ => s

variable {s t u : TaskSet κ ξ} {us : List CallId} {c : CallId} {late : Option TaskRef}

/-! ## Events -/

/-- The deed of the course tells what the event shows. -/
structure Tells (s : TaskSet κ ξ) (e : SetEvent κ ξ) (d : Option Deed) : Prop where
  initialized : s.initTicket? e = d.bind (·.initialized?)
  complete : ∀ task args, (s.perform e).2 = .call (.callInit task args) →
    (s.initTicket? e).isSome = true
  refused : s.lateRefusal? e = d.bind (·.refused?)
  displaced : s.displaced? e = d.bind (·.displaced?)
  way : d.bind (·.way?) = some .unregistered → ∃ task, e = .unregister task

theorem Turns.tells {e : SetEvent κ ξ} {turn : CallTurn}
    (h : Turns late c u (t, turn)) (hperform : s.perform e = (t, .call turn))
    (hcaller : e.caller? = some c)
    (hlate : (e.resumes?.bind fun c => (s.call? c).bind (·.phase.late?)) = late) :
    ∃ d, Course u d (s.perform e).1 ∧ Tells s e d := by
  obtain ⟨d, hcourse, htale⟩ := h
  have hinit : s.initTicket? e = d.bind (·.initialized?) := by
    simpa [initTicket?, hperform, hcaller] using htale.initialized
  refine ⟨d, by rw [hperform]; exact hcourse, hinit, fun task args h => ?_, ?_, ?_,
    fun h => absurd h htale.way⟩
  · rw [hinit]
    refine htale.complete task args ?_
    simpa [hperform] using h
  · simpa [lateRefusal?, hperform, hlate] using htale.refused
  · rw [htale.displaced]
    cases e with
    | ran l now ending => simp [SetEvent.caller?] at hcaller
    | _ => rfl

/-- A loop's turn does nothing to a task. -/
theorem GoesOn.tells {e : SetEvent κ ξ} (h : GoesOn [] s (s.perform e).1)
    (hcaller : e.caller? = none) (hresumes : e.resumes? = none)
    (hdisplaced : s.displaced? e = none) :
    ∃ d, Course s d (s.perform e).1 ∧ Tells s e d := by
  refine ⟨none, h.course, ?_, fun task args hcall => ?_, ?_, hdisplaced, nofun⟩
  · unfold initTicket?
    split <;> simp [hcaller]
  · cases e <;> simp_all [perform, SetEvent.caller?]
  · unfold lateRefusal?
    rw [hresumes]
    split
    · rename_i turn _
      rcases turn with _ | _ | ⟨_ | _⟩ <;> rfl
    · rfl

variable {h : List (SetOccurrence κ ξ)}

theorem Sound.call?_of_new {us : List CallId} (hs : Sound us s) (hc : c ∉ us) :
    (s.call? c).isSome = false := by
  cases hx : s.call? c with
  | none => rfl
  | some x => exact absurd (hs.calls _ (mem_of_call? hx)) hc

/-- Every event is a course, and its deed is what it shows. -/
theorem course_of_perform (hs : Sound (begun h) s) {e : SetEvent κ ξ} (hall : allows h s e = true) :
    ∃ d, Course (s.entered e) d (s.perform e).1 ∧ Tells s e d := by
  cases e with
  | begin c request p =>
    have hnew := hs.call?_of_new (allows_begin.1 hall).2
    exact (turns_begin s c request p hnew).tells rfl rfl rfl
  | poll c p => exact (turns_poll s c p).tells rfl rfl rfl
  | initialized c result p => exact (turns_initialized s c result p).tells rfl rfl rfl
  | abandon c =>
    refine ⟨none, ?_, rfl, nofun, rfl, rfl, nofun⟩
    show Course s none (if s.calls.any (·.id == c) then s.endCall c else s)
    split
    · exact .quietly (.finishes s c) (goesOn_endCall s c).course
    · exact .stays s
  | unregister task =>
    obtain ⟨d, hcourse, hinit, hrefused, hdisplaced⟩ := course_unregister s task
    exact ⟨d, hcourse, hinit.symm, nofun, hrefused.symm, hdisplaced.symm, fun _ => ⟨task, rfl⟩⟩
  | pollLoop l now => exact (goesOn_pollLoop hs l now).tells rfl rfl rfl
  | ran l now ending =>
    obtain ⟨d, hcourse, hinit, hrefused, hdisplaced, hway⟩ :=
      course_ran hs (allows_ran.1 hall) now ending
    exact ⟨d, hcourse, hinit.symm, nofun, hrefused.symm, hdisplaced.symm, fun h => absurd h hway⟩
  | reported l poolName result => exact (goesOn_reported s l poolName result).tells rfl rfl rfl
  | killLoop l => exact (goesOn_killLoop s l).tells rfl rfl rfl
  | cancelRoot => exact (goesOn_cancelRoot s).tells rfl rfl rfl
  | drop =>
    obtain ⟨hd, hcalls, -⟩ := allows_drop.1 hall
    exact ⟨_, course_drop hs hcalls hd, rfl, nofun, rfl, rfl,
      fun h => by simp [Deed.way?] at h⟩

/-! ## Histories -/

/-- A call is new to the set when it enters. -/
theorem Sound.enters (hs : Sound us s) (hc : c ∉ us) (request : Request κ ξ) :
    Sound (us ++ [c]) (s.addCall c (request.phase c)) := by
  have hmem : ∀ {x}, x ∈ (s.addCall c (request.phase c)).calls →
      x ∈ s.calls ∨ x = ⟨c, request.phase c⟩ := fun hx => by simpa [addCall] using hx
  have hstartup : (request.phase c).isStartup = false := by cases request <;> rfl
  have hnew : c ∉ s.tickets ∧ ∀ y ∈ s.loops, y.ticket ≠ c :=
    ⟨fun h => hc (hs.registered c h), fun y hy h => hc (h ▸ hs.polled y hy)⟩
  exact { hs with
    registered := fun k hk => List.mem_append_left _ (hs.registered k hk)
    calls := fun x hx => by
      rcases hmem hx with hx | rfl
      · exact List.mem_append_left _ (hs.calls x hx)
      · simp
    own := fun x hx r hr => by
      rcases hmem hx with hx | rfl
      · exact hs.own x hx r hr
      · cases request with
        | register task args options order extra =>
          obtain rfl := Option.some.inj hr
          rfl
        | init => simp [Request.phase, CallPhase.registration?] at hr
        | destroy => simp [Request.phase, CallPhase.registration?] at hr
    new := fun x hx r hr => by
      rcases hmem hx with hx | rfl
      · exact hs.new x hx r hr
      · exact hnew
    single := fun x hx y hy hxs hys => by
      rcases hmem hx with hx | rfl
      · rcases hmem hy with hy | rfl
        · exact hs.single x hx y hy hxs hys
        · simp [hstartup] at hys
      · simp [hstartup] at hxs
    starting := fun x hx hxs => by
      rcases hmem hx with hx | rfl
      · exact hs.starting x hx hxs
      · simp [hstartup] at hxs
    due := fun x hx => by
      rcases hmem hx with hx | rfl
      · exact hs.due x hx
      · simp [due_eq_nil hstartup]
    dueKnown := fun x hx e he => by
      rcases hmem hx with hx | rfl
      · exact List.mem_append_left _ (hs.dueKnown x hx e he)
      · simp [due_eq_nil hstartup] at he
    dueNew := fun x hx e he y hy r hr => by
      rcases hmem hx with hx | rfl
      · rcases hmem hy with hy | rfl
        · exact hs.dueNew x hx e he y hy r hr
        · intro (hid : c = e.ticket)
          exact hc (hid ▸ hs.dueKnown x hx e he)
      · simp [due_eq_nil hstartup] at he
    unopened := fun hl x hx => by
      rcases hmem hx with hx | rfl
      · exact hs.unopened hl x hx
      · cases request <;> rfl
    polled := fun x hx => List.mem_append_left _ (hs.polled x hx) }

theorem begun_append (h : List (SetOccurrence κ ξ)) (o : SetOccurrence κ ξ) :
    begun (h ++ [o]) = begun h ++ o.event.begins?.toList := by
  cases hb : o.event.begins? <;> simp [begun, hb]

theorem Sound.entered (hs : Sound (begun h) s) {e : SetEvent κ ξ} (hall : allows h s e = true) :
    Sound (begun (h ++ [⟨s, e⟩])) (s.entered e) := by
  rw [begun_append]
  cases e with
  | begin c request p => exact hs.enters (allows_begin.1 hall).2 request
  | _ => simpa [SetEvent.begins?, TaskSet.entered] using hs

/-- A set is sound after any history. -/
theorem sound_of_run (hrun : (setSystem κ ξ).Run h s) : Sound (begun h) s := by
  induction hrun with
  | start hstart =>
    obtain ⟨name, pool, rfl⟩ := hstart
    exact sound_empty
  | @next h s e hrun hall ih =>
    obtain ⟨d, hcourse, _⟩ := course_of_perform ih hall
    exact { hcourse.sound (ih.entered hall) with }

end TaskSet

end Overseer
