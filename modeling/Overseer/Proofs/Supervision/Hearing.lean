import Overseer.Proofs.Supervision.Cues
import Overseer.Proofs.Supervision.Failure

/-!
# A set does what a scene does

Every event of a set that is at work either is a cue, and then the set does what the scene does
(`hears_of_perform`), or leaves the scene alone (`heedless_of_perform`). There is one pair of
lemmas for each kind of event, and they rest on the equations of `Scene`. That a failure of the task
that is left out changes nothing is `isHeedless_ran`: the registration that it takes out, the
teardown that it causes and the loop that hands over its error are all its own.
-/

namespace Overseer

variable {κ ξ : Type}

namespace TaskSet

variable {a : TaskId} {us : List CallId} {s t : TaskSet κ ξ} {c : CallId} {l : LoopId} {x : Loop}
  {r : Registration κ ξ} {h : List (SetOccurrence κ ξ)} {e : SetEvent κ ξ} {q : Cue κ ξ}
  {p : CallPhase κ ξ} {turn : CallTurn}

/-- The event changes nothing about the scene, and what comes of it is nothing to another task. -/
def IsHeedless (a : TaskId) (s : TaskSet κ ξ) (e : SetEvent κ ξ) : Prop :=
  (s.perform e).1.scene a = s.scene a ∧ ∀ task, (s.perform e).2.task? = some task → task.id = a

theorem isHeedless_of_stays {answer : SetAnswer κ} (hturn : s.perform e = (s, answer))
    (hnone : answer.task? = none) : IsHeedless a s e := by
  unfold IsHeedless
  rw [hturn]
  exact ⟨rfl, SetAnswer.about_of_task? hnone⟩

/-! ## Loops that go on -/

theorem loop?_of_mem (hids : (s.loops.map (·.id)).Nodup) {x : Loop} (hx : x ∈ s.loops) :
    s.loop? x.id = some x := by
  cases hy : s.loop? x.id with
  | none => simpa using List.find?_eq_none.1 hy x hx
  | some y =>
    obtain ⟨hmem, hid⟩ := loop?_eq_some hy
    rw [List.inj_on_of_nodup_map hids hmem hx hid]

/-- Loops of the task that is left out are not seen. -/
theorem isSeen_self (hx : x.task.id = a) : x.isSeen a = false := by simp [Loop.isSeen, hx]

theorem isSeen_of_isPolling (hx : x.task.id ≠ a) (hpoll : x.isPolling = true) :
    x.isSeen a = true := by
  simp [Loop.isSeen, hx, hpoll]

theorem id_of_unseen (hunseen : x.isSeen a = false) (hpoll : x.isPolling = true) :
    x.task.id = a := by
  by_contra hid
  exact Bool.false_ne_true (hunseen.symm.trans (isSeen_of_isPolling hid hpoll))

theorem unseen_of_seenLoop? (hl : s.loop? l = some x) (hx : s.seenLoop? a l = none) :
    x.isSeen a = false := by
  simpa [seenLoop?, hl, Option.filter] using hx

/-- A loop of another task that polls goes on. -/
theorem scene_goesOn (hn : s.Sole) (hids : (s.loops.map (·.id)).Nodup) (hx : x ∈ s.loops)
    (hid : x.task.id ≠ a) {phase : LoopPhase}
    (hpoll : ({ x with phase := phase } : Loop).isPolling = true) :
    (s.setLoop x.id fun y => { y with phase := phase }).scene a =
      (s.scene a).setLoop x.ticket (some { x.unnumbered with phase := phase }) := by
  rw [scene_setLoop hn hids hx rfl,
    if_pos (isSeen_of_isPolling (x := { x with phase := phase }) hid hpoll)]
  rfl

theorem hears_rest (hn : s.Sole) (hids : (s.loops.map (·.id)).Nodup) (hx : s.loop? l = some x)
    (hid : x.task.id ≠ a) (now : Nat) :
    ((s.rest l now).1.scene a, SetAnswer.loop (s.rest l now).2) =
      (s.scene a).rest x.ticket x.unnumbered now := by
  obtain ⟨hmem, rfl⟩ := loop?_eq_some hx
  have hturn : s.rest x.id now = if x.cancelled then (s.endLoop x.id, .ended) else
      (s.setLoop x.id fun y => { y with phase := .waiting (now + x.period.ceilMillis) },
        .wait (now + x.period.ceilMillis)) := by simp only [rest, hx]
  rw [hturn]
  unfold Scene.rest
  by_cases hc : x.cancelled = true
  · rw [if_pos hc, if_pos (c := x.unnumbered.cancelled = true) hc]
    exact Prod.ext (scene_endLoop hn hids hmem a) rfl
  · rw [if_neg hc, if_neg (c := x.unnumbered.cancelled = true) hc]
    exact Prod.ext (scene_goesOn hn hids hmem hid rfl) rfl

theorem heedless_rest (hn : s.Sole) (hids : (s.loops.map (·.id)).Nodup) (hx : s.loop? l = some x)
    (hid : x.task.id = a) (now : Nat) : (s.rest l now).1.scene a = s.scene a := by
  obtain ⟨hmem, rfl⟩ := loop?_eq_some hx
  have hunseen := isSeen_self hid
  unfold rest
  simp only [hx]
  split
  · exact scene_endLoop_unseen hn hids hmem hunseen
  · exact scene_setLoop_unseen hn hids hmem rfl hunseen (isSeen_self hid)

theorem task?_rest (s : TaskSet κ ξ) (l : LoopId) (now : Nat) :
    (SetAnswer.loop (κ := κ) (s.rest l now).2).task? = none := by
  rcases rest_turn s l now with hturn | ⟨deadline, hturn⟩ <;> rw [hturn] <;> rfl

/-- A loop that is seen polls another task, and the scene has it. -/
theorem seenLoop?_eq_some (hn : s.Sole) (hx : s.seenLoop? a l = some x) :
    s.loop? l = some x ∧ x.task.id ≠ a ∧ x.isPolling = true ∧
      (s.scene a).loops x.ticket = some x.unnumbered := by
  obtain ⟨hx, hseen⟩ := Option.filter_eq_some_iff.1 hx
  have hpolls : x.task.id ≠ a ∧ x.isPolling = true := by simpa [Loop.isSeen] using hseen
  refine ⟨hx, hpolls.1, hpolls.2, ?_⟩
  rw [scene_loops_of_mem hn (loop?_eq_some hx).1, if_pos hseen]

/-- A loop that gets its turn says that it has started with the first one. -/
theorem pollLoop_of_spawned (hx : s.loop? l = some x) (hp : x.phase = .spawned) (now : Nat) :
    s.pollLoop l now = (s.loopRecord .debug "Task loop started."
      [("period_ms", .number x.period.millis)]).rest l now := by
  simp only [pollLoop, hx, hp]

theorem hears_pollLoop (hs : AtWork us s) (hx : s.seenLoop? a l = some x) (now : Nat) :
    ((s.pollLoop l now).1.scene a, SetAnswer.loop (s.pollLoop l now).2) =
      (s.scene a).poll x.ticket now := by
  obtain ⟨hx, hid, hpoll, hloop⟩ := seenLoop?_eq_some hs.sole hx
  obtain ⟨hmem, rfl⟩ := loop?_eq_some hx
  unfold Scene.poll
  rw [hloop]
  cases hp : x.phase with
  | spawned =>
    have hphase : x.unnumbered.phase = .spawned := hp
    rw [pollLoop_of_spawned hx hp]
    simp only [hphase]
    have hscene : (s.loopRecord .debug "Task loop started."
        [("period_ms", .number x.period.millis)]).scene a = s.scene a :=
      (alike_notify rfl).scene_eq a
    rw [hears_rest (s := s.loopRecord .debug "Task loop started." _) hs.sole hs.sound.loopIds hx
      hid, hscene]
  | waiting deadline =>
    have hphase : x.unnumbered.phase = .waiting deadline := hp
    have hturn : s.pollLoop x.id now = if x.cancelled then (s.endLoop x.id, .ended)
        else if deadline ≤ now then
          (s.setLoop x.id fun y => { y with phase := .running }, .run x.task)
        else (s, .wait deadline) := by simp only [pollLoop, hx, hp]
    rw [hturn]
    simp only [hphase]
    by_cases hc : x.cancelled = true
    · rw [if_pos hc, if_pos (c := x.unnumbered.cancelled = true) hc]
      exact Prod.ext (scene_endLoop hs.sole hs.sound.loopIds hmem a) rfl
    · rw [if_neg hc, if_neg (c := x.unnumbered.cancelled = true) hc]
      by_cases hdue : deadline ≤ now
      · rw [if_pos hdue, if_pos hdue]
        exact Prod.ext (scene_goesOn hs.sole hs.sound.loopIds hmem hid rfl) rfl
      · rw [if_neg hdue, if_neg hdue]
  | running =>
    have hphase : x.unnumbered.phase = .running := hp
    have hturn : s.pollLoop x.id now = (s, .wait now) := by simp only [pollLoop, hx, hp]
    simp only [hturn, hphase]
  | reporting => simp [Loop.isPolling, hp] at hpoll
  | ended => simp [Loop.isPolling, hp] at hpoll

/-- A turn of a loop that is not seen. -/
theorem isHeedless_pollLoop (hs : AtWork us s) (hx : s.seenLoop? a l = none) (now : Nat) :
    IsHeedless a s (.pollLoop l now) := by
  cases hl : s.loop? l with
  | none =>
    have hturn : s.perform (.pollLoop l now) = (s, .loop .ended) := by
      simp only [perform, pollLoop, hl]
    exact isHeedless_of_stays hturn rfl
  | some x =>
    have hunseen := unseen_of_seenLoop? hl hx
    obtain ⟨hmem, rfl⟩ := loop?_eq_some hl
    cases hp : x.phase with
    | spawned =>
      have hself := id_of_unseen hunseen (by simp [Loop.isPolling, hp])
      show (s.pollLoop x.id now).1.scene a = s.scene a ∧
        ∀ task, (SetAnswer.loop (s.pollLoop x.id now).2).task? = some task → task.id = a
      rw [pollLoop_of_spawned hl hp]
      refine ⟨?_, SetAnswer.about_of_task? (task?_rest _ _ now)⟩
      exact (heedless_rest (s := s.loopRecord .debug "Task loop started." _) hs.sole
        hs.sound.loopIds hl hself now).trans ((alike_notify rfl).scene_eq a)
    | waiting deadline =>
      have hself := id_of_unseen hunseen (by simp [Loop.isPolling, hp])
      show (s.pollLoop x.id now).1.scene a = s.scene a ∧
        ∀ task, (SetAnswer.loop (s.pollLoop x.id now).2).task? = some task → task.id = a
      unfold pollLoop
      simp only [hl, hp]
      split
      · exact ⟨scene_endLoop_unseen hs.sole hs.sound.loopIds hmem hunseen,
          SetAnswer.about_of_task? rfl⟩
      · split
        · refine ⟨scene_setLoop_unseen hs.sole hs.sound.loopIds hmem rfl hunseen
            (isSeen_self hself), fun task htask => ?_⟩
          rw [← Option.some.inj htask]
          exact hself
        · exact ⟨rfl, SetAnswer.about_of_task? rfl⟩
    | running | reporting =>
      have hturn : s.perform (.pollLoop x.id now) = (s, .loop (.wait now)) := by
        simp only [perform, pollLoop, hl, hp]
      exact isHeedless_of_stays hturn rfl
    | ended =>
      have hturn : s.perform (.pollLoop x.id now) = (s, .loop .ended) := by
        simp only [perform, pollLoop, hl, hp]
      exact isHeedless_of_stays hturn rfl

/-! ## Loops that fail -/

theorem scene_fail_of_absent (hn : s.Sole) (hids : (s.loops.map (·.id)).Nodup) (hx : x ∈ s.loops)
    (hr : s.registry.lookup? x.task.id = none) (error : Fault) (a : TaskId) :
    (s.fail x.id x.task error).1.scene a = (s.scene a).setLoop x.ticket none := by
  have hscene : (s.record .debug "Task failed after being removed."
      [("task", .text x.task.name), ("error", .text error.text)]).scene a = s.scene a :=
    (alike_notify rfl).scene_eq a
  unfold fail
  simp only [hr]
  rw [scene_endLoop (s := s.record .debug "Task failed after being removed." _) hn hids hx, hscene]
  rfl

/-- What is registered of the task of a loop that fails leaves, and the loop is not seen any
longer, whether it has an error to hand over or not. -/
theorem scene_fail (hn : s.Sole) (hids : (s.loops.map (·.id)).Nodup) (hx : x ∈ s.loops)
    (hp : x.phase ≠ .ended) (hr : s.registry.lookup? x.task.id = some r) (error : Fault)
    (a : TaskId) : (s.fail x.id x.task error).1.scene a = { s.scene a with
      registry := (s.scene a).registry.remove x.task.id
      loops := Function.update (s.scene a).loops x.ticket none
      left := (s.scene a).left ++ if r.task.id = a then [] else [r.task] } := by
  let u := { s with registry := s.registry.remove x.task.id }.tearDown r .failed
  have hu : u.scene a = { s.scene a with
      registry := (s.scene a).registry.remove x.task.id
      left := (s.scene a).left ++ if r.task.id = a then [] else [r.task] } := by
    refine (scene_tearDown _ r .failed a).trans ?_
    rw [show (s.scene a).registry = s.registry.others a from rfl, ← Registry.others_remove]
    rfl
  -- the loop of what leaves may be another one, but only loops that have ended are forgotten
  have hforget : ∃ v, r.loop.elim u u.forgetLoop = v ∧ v.scene a = u.scene a ∧ v.Sole ∧
      (v.loops.map (·.id)).Nodup ∧ x ∈ v.loops := by
    refine ⟨_, rfl, ?_⟩
    have hgo := goesOn_elim_forgetLoop u r.loop
    cases hl : r.loop with
    | none => exact ⟨rfl, hn, hids, hx⟩
    | some l =>
      rw [hl] at hgo
      exact ⟨scene_forgetLoop (s := u) hn l a, Sole.forgetLoop (s := u) hn l, hgo.distinct hids,
        mem_forgetLoop (s := u) hx hp l⟩
  obtain ⟨v, hv, hscene, hsole, hvids, hmem⟩ := hforget
  have hfail : (s.fail x.id x.task error).1 = v.endLoop x.id ∨
      (s.fail x.id x.task error).1 = v.setLoop x.id fun y => { y with phase := .reporting } := by
    rw [← hv]
    unfold fail
    simp only [hr]
    cases r.options.onError with
    | none => exact .inl rfl
    | some callback => exact .inr rfl
  have hover : (s.fail x.id x.task error).1.scene a = (v.scene a).setLoop x.ticket none := by
    rcases hfail with heq | heq
    · rw [heq, scene_endLoop hsole hvids hmem]
      rfl
    · rw [heq, scene_setLoop hsole hvids hmem rfl]
      simp [Loop.isSeen, Loop.isPolling, Scene.setLoop]
  rw [hover, hscene, hu]
  rfl

/-- The scene has nothing of the task that is left out. -/
theorem scene_remove_self (s : TaskSet κ ξ) (a : TaskId) :
    (s.scene a).registry.remove a = (s.scene a).registry := by
  show (s.registry.others a).remove a = s.registry.others a
  rw [← Registry.others_remove, Registry.others_remove_self]

/-- A run of another task has failed. -/
theorem hears_fail (hn : s.Sole) (hids : (s.loops.map (·.id)).Nodup) (hx : x ∈ s.loops)
    (hp : x.phase ≠ .ended) (hid : x.task.id ≠ a) (error : Fault) :
    ((s.fail x.id x.task error).1.scene a, SetAnswer.loop (s.fail x.id x.task error).2) =
      (s.scene a).fail x.ticket x.task error := by
  have hlookup : (s.scene a).registry.lookup? x.task.id =
      (s.registry.lookup? x.task.id).map Registration.unlooped := Registry.lookup?_others hid
  unfold Scene.fail
  rw [hlookup]
  cases hr : s.registry.lookup? x.task.id with
  | none =>
    refine Prod.ext (scene_fail_of_absent hn hids hx hr error a) ?_
    simp only [fail, hr]
    rfl
  | some r =>
    have hother : r.task.id ≠ a := Registry.id_of_lookup? hr ▸ hid
    refine Prod.ext ?_ (congrArg SetAnswer.loop (fail_of_registered hr error).2)
    refine (scene_fail hn hids hx hp hr error a).trans ?_
    rw [if_neg hother]
    rfl

/-- A run of the task that is left out has failed. -/
theorem heedless_fail (hn : s.Sole) (hids : (s.loops.map (·.id)).Nodup) (hx : x ∈ s.loops)
    (hp : x.phase ≠ .ended) (hid : x.task.id = a) (error : Fault) :
    (s.fail x.id x.task error).1.scene a = s.scene a := by
  have hloop : Function.update (s.scene a).loops x.ticket none = (s.scene a).loops := by
    have hnone : (s.scene a).loops x.ticket = none := by
      rw [scene_loops_of_mem hn hx, if_neg (by simp [isSeen_self hid])]
    rw [← hnone, Function.update_eq_self]
  cases hr : s.registry.lookup? x.task.id with
  | none =>
    rw [scene_fail_of_absent hn hids hx hr, Scene.setLoop, hloop]
  | some r =>
    have hself : r.task.id = a := (Registry.id_of_lookup? hr).trans hid
    rw [scene_fail hn hids hx hp hr, hid, scene_remove_self, hloop, if_pos hself, List.append_nil]

theorem scene_warned (s : TaskSet κ ξ) (error : Fault) (a : TaskId) :
    (s.warned error).scene a = s.scene a :=
  (alike_notify rfl).scene_eq a

theorem hears_ran (hs : AtWork us s) (hx : s.seenLoop? a l = some x) (now : Nat)
    (ending : Ending Unit) :
    ((s.ran l now ending).1.scene a, SetAnswer.loop (s.ran l now ending).2) =
      (s.scene a).ran x.ticket now ending.error? := by
  obtain ⟨hx, hid, hpoll, hloop⟩ := seenLoop?_eq_some hs.sole hx
  obtain ⟨hmem, rfl⟩ := loop?_eq_some hx
  have hphase : x.phase ≠ .ended := fun hp => by simp [Loop.isPolling, hp] at hpoll
  unfold Scene.ran
  rw [hloop]
  rcases ran_cases s x.id now ending with ⟨hno, -⟩ | ⟨y, hy, hcases⟩
  · exact absurd (hx.symm.trans hno) (Option.some_ne_none _)
  · obtain rfl := Option.some.inj (hy.symm.trans hx)
    rcases hcases with ⟨hvalue, heq⟩ | ⟨error, hfail, heq⟩
    · rw [heq, hvalue]
      exact hears_rest hs.sole hs.sound.loopIds hx hid now
    · rw [heq, hfail, if_neg (by simp [hs.undropped])]
      refine (hears_fail (s := s.warned error) hs.sole hs.sound.loopIds hmem hphase hid error).trans
        ?_
      rw [scene_warned]
      rfl

/-- A run of the task that is left out has ended. -/
theorem isHeedless_ran (hs : AtWork us s) (hx : s.seenLoop? a l = none)
    (hall : ∃ x ∈ s.loops, x.id = l ∧ x.phase = .running) (now : Nat) (ending : Ending Unit) :
    IsHeedless a s (.ran l now ending) := by
  obtain ⟨y, hmem, rfl, hp⟩ := hall
  have hl := loop?_of_mem hs.sound.loopIds hmem
  have hid := id_of_unseen (unseen_of_seenLoop? hl hx) (by simp [Loop.isPolling, hp])
  show (s.ran y.id now ending).1.scene a = s.scene a ∧
    ∀ task, (SetAnswer.loop (s.ran y.id now ending).2).task? = some task → task.id = a
  rcases ran_cases s y.id now ending with ⟨hno, -⟩ | ⟨z, hz, hcases⟩
  · exact absurd (hl.symm.trans hno) (Option.some_ne_none _)
  · obtain rfl := Option.some.inj (hz.symm.trans hl)
    rcases hcases with ⟨-, heq⟩ | ⟨error, -, heq⟩
    · rw [heq]
      exact ⟨heedless_rest hs.sole hs.sound.loopIds hl hid now,
        SetAnswer.about_of_task? (task?_rest s z.id now)⟩
    · rw [heq, if_neg (by simp [hs.undropped])]
      refine ⟨(heedless_fail (s := s.warned error) hs.sole hs.sound.loopIds hmem (by simp [hp]) hid
        error).trans (scene_warned s error a), fun task htask => ?_⟩
      cases hturn : ((s.warned error).fail z.id z.task error).2 with
      | report callback task' error' pool =>
        rw [hturn] at htask
        obtain rfl := Option.some.inj htask
        rw [← (registered_of_fail hturn).1]
        exact hid
      | run task' => exact absurd hturn (fail_ne_run _ _ _ _ _)
      | wait deadline => simp [hturn, SetAnswer.task?] at htask
      | ended => simp [hturn, SetAnswer.task?] at htask

/-! ## Whoever leaves, and tokens -/

/-- What is unregistered leaves, and its loop is cancelled. -/
theorem scene_unregister (hs : AtWork us s) {task : TaskRef}
    (hr : s.registry.lookup? task.id = some r) (a : TaskId) :
    (s.unregister task).1.scene a = { s.scene a with
      registry := (s.scene a).registry.remove task.id
      loops := Function.update (s.scene a).loops r.ticket
        (((s.scene a).loops r.ticket).map Loop.cancel)
      left := (s.scene a).left ++ if r.task.id = a then [] else [r.task] } := by
  obtain ⟨x, hx, hloop, hticket, -⟩ := hs.tended r (Registry.mem_of_lookup? hr)
  let u := { s with registry := s.registry.remove task.id }
  have hu : u.scene a = { s.scene a with
      registry := (s.scene a).registry.remove task.id } := by
    rw [show (s.scene a).registry = s.registry.others a from rfl, ← Registry.others_remove]
    rfl
  have hturn : (s.unregister task).1 =
      ((u.cancelLoop x.id).tearDown r .stopped).forgetLoop x.id := by
    simp only [unregister, hr, retire, hloop]
    rfl
  have hcancel : (u.cancelLoop x.id).Sole := Sole.cancelLoop (s := u) hs.sole x.id
  rw [hturn, scene_forgetLoop (s := (u.cancelLoop x.id).tearDown r .stopped) hcancel,
    scene_tearDown, scene_cancelLoop (s := u) hs.sole hs.sound.loopIds hx, hu, hticket]

theorem unregister_of_absent {task : TaskRef} (hr : s.registry.lookup? task.id = none) :
    s.unregister task = (s, .error (.notRegistered task.name)) := by
  simp only [unregister, hr]

theorem hears_unregister (hs : AtWork us s) {task : TaskRef} (hid : task.id ≠ a) :
    ((s.unregister task).1.scene a, SetAnswer.result (s.unregister task).2) =
      (s.scene a).unregister task := by
  have hlookup : (s.scene a).registry.lookup? task.id =
      (s.registry.lookup? task.id).map Registration.unlooped := Registry.lookup?_others hid
  unfold Scene.unregister
  rw [hlookup]
  cases hr : s.registry.lookup? task.id with
  | none =>
    rw [unregister_of_absent hr]
    rfl
  | some r =>
    have hother : r.task.id ≠ a := Registry.id_of_lookup? hr ▸ hid
    have hok : (s.unregister task).2 = .ok () := by simp only [unregister, hr]
    rw [scene_unregister hs hr, hok, if_neg hother]
    rfl

theorem heedless_unregister (hs : AtWork us s) {task : TaskRef} (hid : task.id = a) :
    (s.unregister task).1.scene a = s.scene a := by
  cases hr : s.registry.lookup? task.id with
  | none => rw [unregister_of_absent hr]
  | some r =>
    have hself : r.task.id = a := (Registry.id_of_lookup? hr).trans hid
    obtain ⟨x, hx, -, hticket, htask⟩ := hs.tended r (Registry.mem_of_lookup? hr)
    have hnone : (s.scene a).loops r.ticket = none := by
      rw [← hticket, scene_loops_of_mem hs.sole hx,
        if_neg (by simp [isSeen_self (x := x) (htask ▸ hself)])]
    rw [scene_unregister hs hr, hid, scene_remove_self, hnone, if_pos hself, List.append_nil,
      Option.map_none, ← hnone, Function.update_eq_self]

theorem hears_killLoop (hs : AtWork us s) (hx : s.seenLoop? a l = some x) :
    (s.killLoop l).scene a = (s.scene a).setLoop x.ticket none := by
  obtain ⟨hx, -, hpoll, -⟩ := seenLoop?_eq_some hs.sole hx
  obtain ⟨hmem, rfl⟩ := loop?_eq_some hx
  have hphase : (x.phase == .ended) = false :=
    beq_false_of_ne fun hp => by simp [Loop.isPolling, hp] at hpoll
  have hturn : s.killLoop x.id = s.endLoop x.id := by
    simp only [killLoop, hx, hphase]
    rfl
  rw [hturn]
  exact scene_endLoop hs.sole hs.sound.loopIds hmem a

theorem heedless_killLoop (hs : AtWork us s) (hx : s.seenLoop? a l = none) :
    (s.killLoop l).scene a = s.scene a := by
  unfold killLoop
  cases hl : s.loop? l with
  | none => rfl
  | some x =>
    have hunseen := unseen_of_seenLoop? hl hx
    obtain ⟨hmem, rfl⟩ := loop?_eq_some hl
    dsimp only
    split
    · rfl
    · exact scene_endLoop_unseen hs.sole hs.sound.loopIds hmem hunseen

/-- A loop that hands over an error is not seen, and neither is its end. -/
theorem heedless_reported (hs : AtWork us s)
    (hall : ∃ x ∈ s.loops, x.id = l ∧ x.phase = .reporting) (poolName : String)
    (result : Except PoolError Unit) :
    (s.reported l poolName result).scene a = s.scene a := by
  obtain ⟨x, hmem, rfl, hp⟩ := hall
  have hunseen : x.isSeen a = false := by simp [Loop.isSeen, Loop.isPolling, hp]
  cases result with
  | ok _ => exact scene_endLoop_unseen hs.sole hs.sound.loopIds hmem hunseen
  | error e =>
    refine (scene_endLoop_unseen (s := s.record .error _ _) hs.sole hs.sound.loopIds hmem
      hunseen).trans ?_
    exact (alike_notify rfl).scene_eq a

theorem hears_cancelRoot (hs : AtWork us s) (a : TaskId) :
    s.cancelRoot.scene a = (s.scene a).cancelRoot := by
  unfold Scene.cancelRoot
  cases hc : s.rootCancelled with
  | true =>
    have hsame : s.cancelRoot = s := if_pos (by simp [hc])
    rw [hsame, if_pos (c := (s.scene a).rootCancelled = true) hc]
  | false =>
    have hopen : (s.scene a).rootCancelled = false := hc
    rw [if_neg (by simp [hopen])]
    exact scene_cancelRoot (hs.sound.rooted hs.started hs.undropped) hc a

/-! ## Calls that bring nothing -/

/-- A late startup leaves the scene alone. -/
theorem Takes.scene_eq (ht : Takes c s p t turn) (hp : p = .queued ∨ p = .opening)
    (hl : s.lifecycle = .started) (hc : ⟨c, p⟩ ∈ s.calls) (hno : s.arriving a c = none) :
    t.scene a = s.scene a ∧ (SetAnswer.call (κ := κ) turn).task? = none := by
  have hsame : ∀ {s : TaskSet κ ξ}, s.arriving a c = none →
      { s.scene a with arriving := Function.update (s.arriving a) c none } = s.scene a := by
    intro s hno
    conv_lhs => rw [← hno, Function.update_eq_self]
    rfl
  have hover : ∀ {s : TaskSet κ ξ}, s.arriving a c = none → (s.without c).scene a = s.scene a :=
    fun hno => (scene_without _ a c).trans (hsame hno)
  induction ht with
  | waits s p => exact ⟨rfl, rfl⟩
  | alike ha _ ih =>
    have hscene := ha.scene_eq a
    obtain ⟨ht, hturn⟩ := ih hp (ha.lifecycle.trans hl) (ha.calls ▸ hc)
      ((congrFun (congrArg Scene.arriving hscene) c).trans hno)
    exact ⟨ht.trans hscene, hturn⟩
  | @unqueues s t turn _ _ ih =>
    have hscene : (s.setPhase c .opening).scene a = s.scene a :=
      (scene_setPhase hc .opening a).trans (hsame hno)
    obtain ⟨ht, hturn⟩ := ih (.inr rfl) hl (mem_setPhase_self hc)
      ((congrFun (congrArg Scene.arriving hscene) c).trans hno)
    exact ⟨ht.trans hscene, hturn⟩
  | opens hst _ _ => cases hst.symm.trans hl
  | passes _ ha => exact ⟨(ha.scene_eq a).trans (hover hno), rfl⟩
  | fails hst _ => cases hst.symm.trans hl
  | expires hst _ _ => cases hst.symm.trans hl
  | enrolls hphase _ _ =>
    rcases hp with rfl | rfl <;> rcases hphase with ⟨hphase, -⟩ | hphase <;> contradiction
  | _ => rcases hp with hp | hp <;> contradiction

theorem arriving_eq_some : s.arriving a c = some r ↔
    s.call? c = some ⟨c, .initializing r⟩ ∧ r.task.id ≠ a := by
  constructor
  · intro h
    obtain ⟨h, hid⟩ := Option.filter_eq_some_iff.1 h
    obtain ⟨⟨d, p⟩, hx, hp⟩ := Option.bind_eq_some_iff.1 h
    obtain rfl : d = c := by simpa [call?] using List.find?_some hx
    cases p with
    | initializing r' =>
      obtain rfl := Option.some.inj hp
      exact ⟨hx, by simpa using hid⟩
    | _ => contradiction
  · rintro ⟨hx, hid⟩
    simp [arriving, hx, CallPhase.arriving?, Option.filter, hid]

/-- A call that brings nothing, or the task that is left out. -/
theorem setArriving_of_none (hno : s.arriving a c = none) :
    (s.scene a).setArriving c none = s.scene a := by
  unfold Scene.setArriving
  conv_lhs => rw [← hno]
  exact congrArg (fun g => { s.scene a with arriving := g }) (Function.update_eq_self _ _)

/-- The calls of a set that is at work wait for an `init` or for the startup lock. -/
theorem AtWork.phase_of_call? (hs : AtWork us s) {y : Call κ ξ} (hx : s.call? c = some y) :
    (∃ r, s.call? c = some ⟨c, .initializing r⟩) ∨ s.call? c = some ⟨c, .queued⟩ := by
  obtain ⟨d, p⟩ := y
  obtain rfl : d = c := by simpa [call?] using List.find?_some hx
  rcases hs.phases _ (mem_of_call? hx) with ⟨r, hp⟩ | hp
  · obtain rfl : p = .initializing r := hp
    exact .inl ⟨r, hx⟩
  · obtain rfl : p = .queued := hp
    exact .inr hx

theorem isHeedless_poll (hs : AtWork us s) (c : CallId) (b : Bool) :
    IsHeedless a s (.poll c b) := by
  cases hx : s.call? c with
  | none =>
    have hturn : s.perform (.poll c b) = (s, .call .wait) := by simp only [perform, poll, hx]
    exact isHeedless_of_stays hturn rfl
  | some y =>
    rcases hs.phase_of_call? hx with ⟨r, hr⟩ | hq
    · have hturn : s.perform (.poll c b) = (s, .call .wait) := by simp only [perform, poll, hr]
      exact isHeedless_of_stays hturn rfl
    · have hno : s.arriving a c = none := by simp [arriving, hq, CallPhase.arriving?]
      obtain ⟨hscene, hturn⟩ :=
        (takes_poll hq b).scene_eq (.inl rfl) hs.started (mem_of_call? hq) hno
      exact ⟨hscene, SetAnswer.about_of_task? hturn⟩

theorem isHeedless_init (hs : AtWork us s) (hnew : (s.call? c).isSome = false) (b : Bool) :
    IsHeedless a s (.begin c .init b) := by
  have hgives := gives_begin hnew .init b
  have hin : (s.addCall c .queued).scene a = s.scene a := scene_addCall hnew rfl a
  have hno : (s.addCall c .queued).arriving a c = none :=
    (congrFun (congrArg Scene.arriving hin) c).trans (arriving_of_new hnew a)
  show (s.begin c .init b).1.scene a = s.scene a ∧
    ∀ task, (SetAnswer.call (κ := κ) (s.begin c .init b).2).task? = some task → task.id = a
  generalize (s.begin c .init b).1 = t, (s.begin c .init b).2 = turn at hgives
  cases hgives with
  | begins ht =>
    obtain ⟨hscene, hturn⟩ := ht.scene_eq (.inl rfl) hs.started (mem_addCall_self s c _) hno
    exact ⟨hscene.trans hin, SetAnswer.about_of_task? hturn⟩
  | misses hno _ => contradiction

/-- What comes of a late registration whose task has been initialized is told to its caller. -/
theorem initialized_returns (hs : AtWork us s) (hx : s.call? c = some ⟨c, .initializing r⟩)
    (result : Except Fault Unit) (b : Bool) :
    (SetAnswer.call (κ := κ) (s.initialized c result b).2).task? = none := by
  cases result with
  | error source =>
    have herror : s.initialized c (.error source) b =
        s.finish c (.error (.initFailed r.task.name source)) := by simp only [initialized, hx]
    rw [herror]
    rfl
  | ok _ =>
    rw [initialized_of_started hs hx]
    cases s.refusal? r <;> rfl

theorem isHeedless_initialized (hs : AtWork us s) (hno : s.arriving a c = none)
    (result : Except Fault Unit) (b : Bool) : IsHeedless a s (.initialized c result b) := by
  cases hx : s.call? c with
  | none =>
    have hturn : s.perform (.initialized c result b) = (s, .call .wait) := by
      simp only [perform, initialized, hx]
    exact isHeedless_of_stays hturn rfl
  | some y =>
    rcases hs.phase_of_call? hx with ⟨r, hr⟩ | hq
    · have hid : r.task.id = a := by
        by_contra hid
        exact absurd ((arriving_eq_some.2 ⟨hr, hid⟩).symm.trans hno) (Option.some_ne_none _)
      exact ⟨heedless_initialized hs hr hid result b,
        SetAnswer.about_of_task? (initialized_returns hs hr result b)⟩
    · have hturn : s.perform (.initialized c result b) = (s, .call .wait) := by
        simp only [perform, initialized, hq]
      exact isHeedless_of_stays hturn rfl

/-- The call that brings a late registration is dropped. -/
theorem scene_abandon (s : TaskSet κ ξ) (c : CallId) (a : TaskId) :
    (s.abandon c).scene a = (s.scene a).setArriving c none := by
  unfold abandon
  split
  · exact scene_over s c a
  · rename_i hno
    have hnone : s.arriving a c = none := by
      have hcall : s.call? c = none := List.find?_eq_none.2 fun x hx hid =>
        hno (List.any_eq_true.2 ⟨x, hx, hid⟩)
      simp [arriving, hcall]
    exact (setArriving_of_none hnone).symm

/-! ## Events -/

/-- A cue does to a set what it does to a scene, and the same comes of it. -/
theorem hears_of_perform (hrun : (setSystem κ ξ).Run h s) (hs : AtWork (begun h) s)
    (hall : allows h s e = true) (hq : s.cue? a e = some q) :
    ((s.perform e).1.scene a, (s.perform e).2) = (s.scene a).hear (s.isHeld a e) q := by
  cases e with
  | begin c request b =>
    cases request with
    | register task args options order extra =>
      unfold cue? at hq
      dsimp only at hq
      split at hq
      · contradiction
      · rename_i hid
        obtain rfl := Option.some.inj hq
        rw [perform_of_prompt hrun hall (by simp [hs.started]) rfl]
        exact hears_register hs (hs.sound.call?_of_new (allows_begin.1 hall).2) hid
    | _ => contradiction
  | initialized c result b =>
    obtain ⟨r, hr, rfl⟩ := Option.map_eq_some_iff.1 hq
    have hposition : s.isHeld a (.initialized c result b) = s.holds a r.order := by
      simp only [isHeld, position?, hr, Option.bind_some]
    obtain ⟨hx, hid⟩ := arriving_eq_some.1 hr
    rw [hposition]
    exact hears_initialized hs hx hid result b
  | abandon c =>
    obtain ⟨r, -, rfl⟩ := Option.map_eq_some_iff.1 hq
    exact Prod.ext (scene_abandon s c a) rfl
  | unregister task =>
    unfold cue? at hq
    dsimp only at hq
    split at hq
    · contradiction
    · rename_i hid
      obtain rfl := Option.some.inj hq
      exact hears_unregister hs hid
  | pollLoop l now =>
    obtain ⟨x, hx, rfl⟩ := Option.map_eq_some_iff.1 hq
    exact hears_pollLoop hs hx now
  | ran l now ending =>
    obtain ⟨x, hx, rfl⟩ := Option.map_eq_some_iff.1 hq
    exact hears_ran hs hx now ending
  | killLoop l =>
    obtain ⟨x, hx, rfl⟩ := Option.map_eq_some_iff.1 hq
    exact Prod.ext (hears_killLoop hs hx) rfl
  | cancelRoot =>
    obtain rfl := Option.some.inj hq
    exact Prod.ext (hears_cancelRoot hs a) rfl
  | _ => contradiction

/-- An event that is no cue changes nothing for the other tasks. -/
theorem heedless_of_perform (hrun : (setSystem κ ξ).Run h s) (hs : AtWork (begun h) s)
    (hall : allows h s e = true) (he : e.isSparing = true) (hq : s.cue? a e = none) :
    IsHeedless a s e := by
  cases e with
  | begin c request b =>
    have hnew := hs.sound.call?_of_new (allows_begin.1 hall).2
    cases request with
    | register task args options order extra =>
      have hid : task.id = a := by
        by_contra hid
        simp [cue?, hid] at hq
      unfold IsHeedless
      rw [perform_of_prompt hrun hall (by simp [hs.started]) rfl]
      refine ⟨heedless_register hs hnew hid, fun task' htask => ?_⟩
      dsimp only at htask
      rw [consider_of_started hs] at htask
      split at htask
      · contradiction
      · obtain rfl := Option.some.inj htask
        exact hid
    | init => exact isHeedless_init hs hnew b
    | destroy => contradiction
  | poll c b => exact isHeedless_poll hs c b
  | initialized c result b =>
    exact isHeedless_initialized hs (Option.map_eq_none_iff.1 hq) result b
  | abandon c =>
    exact ⟨(scene_abandon s c a).trans (setArriving_of_none (Option.map_eq_none_iff.1 hq)),
      SetAnswer.about_of_task? rfl⟩
  | unregister task =>
    have hid : task.id = a := by
      by_contra hid
      simp [cue?, hid] at hq
    exact ⟨heedless_unregister hs hid, SetAnswer.about_of_task? rfl⟩
  | pollLoop l now => exact isHeedless_pollLoop hs (Option.map_eq_none_iff.1 hq) now
  | ran l now ending =>
    exact isHeedless_ran hs (Option.map_eq_none_iff.1 hq) (allows_ran.1 hall) now ending
  | reported l poolName result =>
    exact ⟨heedless_reported hs (allows_reported.1 hall) poolName result,
      SetAnswer.about_of_task? rfl⟩
  | killLoop l =>
    exact ⟨heedless_killLoop hs (Option.map_eq_none_iff.1 hq), SetAnswer.about_of_task? rfl⟩
  | cancelRoot => contradiction
  | drop => contradiction

end TaskSet

end Overseer
