import Overseer.Proofs.Supervision.Locks

/-!
# Turns at the desk

`Tends s t` says that a function that has come from `s` to `t` leaves an orderly desk and does not
terminate the set. There is one such lemma for each function that a call can come to, except
`demolish` : that one comes to the `cleared` set, in which everything is cancelled and torn down,
and leaves an orderly desk, too (`Orderly.demolish`). Every event does one or the other
(`goes_of_perform`), so the desk of a set is orderly after any history (`orderly_of_run`).
-/

namespace Overseer

variable {κ ξ : Type}

namespace TaskSet

variable {s t u : TaskSet κ ξ} {c d : CallId} {p q : CallPhase κ ξ}

/-- The desk is left orderly, and the set is not terminated by what has happened. -/
structure Tends (s t : TaskSet κ ξ) : Prop where
  orderly : Orderly s → Orderly t
  terminated : t.lifecycle = .terminated → s.lifecycle = .terminated

theorem Tends.trans (h : Tends s t) (h' : Tends t u) : Tends s u :=
  ⟨fun hs => h'.orderly (h.orderly hs), fun hl => h.terminated (h'.terminated hl)⟩

theorem tends_of_desk (h : t.desk = s.desk) : Tends s t :=
  ⟨Orderly.of_desk h, fun hl => by
    have hsame : t.desk.lifecycle = s.desk.lifecycle := by rw [h]
    exact hsame.symm.trans hl⟩

theorem Tends.refl (s : TaskSet κ ξ) : Tends s s := tends_of_desk rfl

/-! ## Turns of calls -/

theorem lifecycle_leaveLifecycle (s : TaskSet κ ξ) (c : CallId) :
    (s.leaveLifecycle c).lifecycle = s.lifecycle := (goesOn_leaveLifecycle s c).lifecycle

theorem lifecycle_endCall (s : TaskSet κ ξ) (c : CallId) :
    (s.endCall c).lifecycle = s.lifecycle := (goesOn_endCall s c).lifecycle

theorem tends_finish (s : TaskSet κ ξ) (c : CallId) (result : Except SupervisionError Unit) :
    Tends s (s.finish c result).1 :=
  ⟨fun hs => hs.endCall c, fun hl => (lifecycle_endCall s c).symm.trans hl⟩

theorem tends_prepare {next : Entry} {rest : List Entry}
    (hc : ⟨c, .checking next rest⟩ ∈ s.calls) : Tends s (s.prepare c next rest).1 := by
  unfold prepare
  split
  · exact tends_finish s c _
  · exact ⟨fun hs => hs.release hc rfl rfl, fun hl => (lifecycle_leaveLifecycle s c).symm.trans hl⟩

theorem tends_conclude (s : TaskSet κ ξ) (c : CallId) (b : Bool) :
    Tends s (s.conclude c b).1 := by
  unfold conclude
  split
  · exact tends_finish s c _
  · rename_i hl
    have hl : s.lifecycle ≠ .terminated := by simpa using hl
    have hloops : ∀ u : TaskSet κ ξ, u.desk = s.desk →
        Tends s ({ u with lifecycle := .started }.finish c (.ok ())).1 := by
      intro u hu
      refine ⟨fun hs => Orderly.endCall ?_ c, fun h => ?_⟩
      · refine Orderly.of_desk ?_ (hs.withLifecycle hl .started)
        show ({ u.desk with lifecycle := .started } : TaskSet κ ξ) = _
        rw [hu]
        rfl
      · have hstarted : ({ u with lifecycle := .started }.finish c (.ok ())).1.lifecycle =
            .started := lifecycle_endCall { u with lifecycle := .started } c
        exact absurd (hstarted.symm.trans h) (by simp)
    refine hloops _ ?_
    rw [desk_record, desk_foldl desk_startLoop, desk_notify]
    rfl

theorem tends_giveUp (s : TaskSet κ ξ) (c : CallId) (current : Entry) (source : Fault) :
    Tends s (s.giveUp c current source).1 := by
  unfold giveUp
  split
  · exact tends_finish s c _
  · rename_i hl
    have hl : s.lifecycle ≠ .terminated := by simpa using hl
    refine ⟨fun hs => (hs.withLifecycle hl .aborted).endCall c, fun h => ?_⟩
    have haborted := lifecycle_endCall { s with lifecycle := .aborted } c
    exact absurd (haborted.symm.trans h) (by simp)

theorem tends_consider {r : Registration κ ξ} (hc : ⟨c, .admitting r⟩ ∈ s.calls) :
    Tends s (s.consider c r).1 := by
  unfold consider
  split
  · exact tends_finish s c _
  · split
    · exact ⟨fun hs => hs.release hc rfl rfl,
        fun hl => (lifecycle_leaveLifecycle s c).symm.trans hl⟩
    · exact (tends_of_desk (desk_enroll s r)).trans (tends_finish _ c _)

theorem tends_reconsider (s : TaskSet κ ξ) (c : CallId) (r : Registration κ ξ) :
    Tends s (s.reconsider c r).1 := by
  unfold reconsider
  split
  · exact (tends_of_desk (desk_tearDown s r .stopped)).trans (tends_finish _ c _)
  · exact (tends_of_desk (desk_enroll s r)).trans (tends_finish _ c _)

/-- Startup goes on from where it wants the lifecycle lock again. -/
theorem tends_goOn {es : List Entry}
    (hc : ⟨c, .before es⟩ ∈ ((s.lockLifecycle c).setPhase c (.before es)).calls) (b : Bool) :
    Tends ((s.lockLifecycle c).setPhase c (.before es)) (s.goOn c es b).1 := by
  cases es with
  | nil =>
    unfold goOn
    dsimp only
    split
    · exact tends_conclude _ c b
    · exact .refl _
  | cons next rest =>
    unfold goOn
    dsimp only
    split
    · exact tends_prepare hc
    · exact .refl _

theorem tends_goOn_prepared (current : Entry) {es : List Entry}
    (hc : ⟨c, .preparing current es⟩ ∈ s.calls) (b : Bool) : Tends s (s.goOn c es b).1 := by
  have hclaim : Tends s ((s.lockLifecycle c).setPhase c (.before es)) :=
    ⟨fun hs => hs.claim hc rfl (by simp) (CallPhase.wantsStartup_before es)
      (by cases es <;> simp [CallPhase.before]), fun hl => hl⟩
  exact hclaim.trans (tends_goOn (mem_setPhase_self hc) b)

theorem tends_openUp (hc : ⟨c, .opening⟩ ∈ s.calls) (b : Bool) : Tends s (s.openUp c b).1 := by
  unfold openUp
  split
  · rename_i hl
    have hl : s.lifecycle ≠ .terminated := by simp [hl]
    have hleft := goesOn_leaveLifecycle ({ s with lifecycle := .starting } : TaskSet κ ξ) c
    have hc' : ⟨c, .opening⟩ ∈
        ((({ s with lifecycle := .starting } : TaskSet κ ξ).leaveLifecycle c).lockLifecycle
          c).calls := by
      show _ ∈ (({ s with lifecycle := .starting } : TaskSet κ ξ).leaveLifecycle c).calls
      rw [hleft.calls]
      exact hc
    have hgo := tends_goOn (mem_setPhase_self hc' (q := .before s.registry.schedule)) b
    refine ⟨fun hs => hgo.orderly ?_, fun h => ?_⟩
    · exact (hs.withLifecycle hl .starting).reclaim hc (by simp)
        (CallPhase.wantsStartup_before _) (by cases s.registry.schedule <;> simp [CallPhase.before])
    · exact absurd (hleft.lifecycle.symm.trans (hgo.terminated h)) (by simp)
  · exact tends_finish s c _
  · exact tends_finish s c _
  · exact tends_finish s c _
  · exact tends_finish s c _

/-- A call that goes on only with the lock. -/
theorem Tends.ite {b : Bool} {turn : CallTurn} {r : TaskSet κ ξ × CallTurn} (h : Tends s r.1)
    (h' : Tends s t) : Tends s (if b then r else (t, turn)).1 := by
  split
  · exact h
  · exact h'

/-- The turn of a call that is not about to destroy the set. -/
theorem tends_poll {x : Call κ ξ} (hx : s.call? c = some x) (hne : x.phase ≠ .demolishing)
    (b : Bool) : Tends s (s.poll c b).1 := by
  have hc := mem_of_call? hx
  unfold poll
  simp only [hx]
  cases hp : x.phase with
  | admitting r => exact (tends_consider (hp ▸ hc)).ite (.refl s)
  | initializing r => exact .refl s
  | readmitting r => exact (tends_reconsider s c r).ite (.refl s)
  | queued =>
    have hc' : ⟨c, .queued⟩ ∈ s.calls := hp ▸ hc
    have hopen : Tends s ((s.setPhase c .opening).lockLifecycle c) :=
      ⟨fun hs => hs.claim hc' rfl rfl rfl (by simp), fun hl => hl⟩
    refine Tends.ite (hopen.trans (Tends.ite (tends_openUp ?_ b) (.refl _))) (.refl s)
    exact mem_setPhase_self hc'
  | opening => exact (tends_openUp (hp ▸ hc) b).ite (.refl s)
  | checking next rest => exact (tends_prepare (hp ▸ hc)).ite (.refl s)
  | preparing current rest => exact .refl s
  | aborting current source => exact (tends_giveUp s c current source).ite (.refl s)
  | concluding => exact (tends_conclude s c b).ite (.refl s)
  | demolishing => exact absurd hp hne
  | draining => exact (tends_finish s c _).ite (.refl s)

/-- A call goes on after the `init` that it waited for. -/
theorem tends_initialized (s : TaskSet κ ξ) (c : CallId) (result : Except Fault Unit) (b : Bool) :
    Tends s (s.initialized c result b).1 := by
  have hback : ∀ {s : TaskSet κ ξ} {p q : CallPhase κ ξ}, ⟨c, p⟩ ∈ s.calls →
      p.wantsLifecycle = false → q.wantsLifecycle = true → q.wantsStartup = p.wantsStartup →
        q ≠ .draining → q ≠ .demolishing →
          Tends s (((s.setPhase c q).lockLifecycle c).poll c b).1 := by
    intro s p q hc hp hq hst hne hne'
    have hclaim : Tends s ((s.setPhase c q).lockLifecycle c) :=
      ⟨fun hs => hs.claim hc hp hq hst hne, fun hl => hl⟩
    have hcall : ((s.setPhase c q).lockLifecycle c).call? c = some ⟨c, q⟩ := call?_setPhase hc q
    exact hclaim.trans (tends_poll hcall hne' b)
  unfold initialized
  cases hx : s.call? c with
  | none => exact .refl s
  | some x =>
    have hc := mem_of_call? hx
    cases hp : x.phase with
    | initializing r =>
      rw [hp] at hc
      simp only [hp]
      cases result with
      | error source => exact tends_finish s c _
      | ok _ => exact hback hc rfl rfl rfl (by simp) (by simp)
    | preparing current rest =>
      rw [hp] at hc
      simp only [hp]
      cases result with
      | error source =>
        have hrecord : Tends s _ := tends_of_desk (desk_record s .error
          "Task failed to initialize. Aborting startup."
          [("task", .text current.task.name), ("error", .text source.text)])
        exact hrecord.trans (hback hc rfl rfl rfl (by simp) (by simp))
      | ok _ =>
        have hmark : Tends s { s with
            registry := s.registry.modify current.task.id fun r =>
              { r with state := .initialized } } := tends_of_desk rfl
        refine hmark.trans (tends_goOn_prepared current ?_ b)
        exact hc
    | _ =>
      simp only [hp]
      exact .refl s

/-! ## Destroying -/

/-- A set that is terminated, with everything cancelled and torn down. -/
def cleared (s : TaskSet κ ξ) : TaskSet κ ξ :=
  let s := if s.lifecycle == .started then s.cancelRoot else s
  let left := s.registry
  let s := { s with lifecycle := .terminated, registry := [] }
  let s :=
    if left.isEmpty then s
    else s.record .debug "Destroying supervised tasks." [("tasks", .number left.length)]
  (left.foldl (fun s r => s.retire r .destroyed) s).forgetRoot

theorem demolish_eq (s : TaskSet κ ξ) (c : CallId) : s.demolish c =
    if s.cleared.isQuiet then s.cleared.finish c (.ok ())
    else (s.cleared.setPhase c .draining, .wait) := rfl

theorem goesOn_cleared (s : TaskSet κ ξ) : ∃ torn, GoesOn torn
    { (if s.lifecycle == .started then s.cancelRoot else s) with
      lifecycle := .terminated, registry := [] } s.cleared := by
  unfold cleared
  generalize (if s.lifecycle == .started then s.cancelRoot else s) = t
  have hrecord : GoesOn [] ({ t with lifecycle := .terminated, registry := [] } : TaskSet κ ξ)
      (if t.registry.isEmpty then { t with lifecycle := .terminated, registry := [] }
        else ({ t with lifecycle := .terminated, registry := [] } : TaskSet κ ξ).record .debug
          "Destroying supervised tasks." [("tasks", .number t.registry.length)]) := by
    split
    · exact .refl _
    · exact goesOn_record _ _ _ _
  exact ⟨_, (hrecord.trans (goesOn_retire_all _ t.registry .destroyed).1).then
    (goesOn_forgetRoot _)⟩

theorem lifecycle_cleared (s : TaskSet κ ξ) : s.cleared.lifecycle = .terminated := by
  obtain ⟨torn, hgo⟩ := goesOn_cleared s
  exact hgo.lifecycle

theorem desk_cleared (s : TaskSet κ ξ) :
    s.cleared.desk = ({ s with lifecycle := .terminated } : TaskSet κ ξ).desk := by
  have hroot : (if s.lifecycle == .started then s.cancelRoot else s).desk = s.desk := by
    split
    · exact desk_cancelRoot s
    · rfl
  unfold cleared
  generalize (if s.lifecycle == .started then s.cancelRoot else s) = t at hroot
  have hterminated : ({ t with lifecycle := .terminated, registry := [] } : TaskSet κ ξ).desk =
      ({ s with lifecycle := .terminated } : TaskSet κ ξ).desk := by
    show ({ t.desk with lifecycle := .terminated } : TaskSet κ ξ) = _
    rw [hroot]
    rfl
  dsimp only
  rw [desk_forgetRoot, desk_foldl fun s r => desk_retire s r .destroyed, ← hterminated]
  split <;> rfl

theorem Orderly.cleared (hs : Orderly s) : Orderly s.cleared := by
  have hterminated : Orderly ({ s with lifecycle := .terminated } : TaskSet κ ξ) :=
    { hs with drains := fun _ _ => rfl }
  exact hterminated.of_desk (desk_cleared s)

theorem Orderly.demolish (hs : Orderly s) (hc : ⟨c, .demolishing⟩ ∈ s.calls) :
    Orderly (s.demolish c).1 := by
  rw [demolish_eq]
  split
  · exact hs.cleared.endCall c
  · have hc' : ⟨c, .demolishing⟩ ∈ s.cleared.desk.calls := by
      rw [desk_cleared]
      exact hc
    exact hs.cleared.shift (p := .demolishing) hc' rfl rfl fun _ => lifecycle_cleared s

/-! ## Events -/

/-- What an event can do to the desk of a set: it tends to the calls, or destroys the set. -/
inductive Goes (s : TaskSet κ ξ) : TaskSet κ ξ → Prop
  | tends {t : TaskSet κ ξ} : Tends s t → Goes s t
  | demolishes {c : CallId} : ⟨c, .demolishing⟩ ∈ s.calls → Goes s (s.demolish c).1

theorem goes_poll (s : TaskSet κ ξ) (c : CallId) (b : Bool) : Goes s (s.poll c b).1 := by
  cases hx : s.call? c with
  | none =>
    unfold poll
    rw [hx]
    exact .tends (.refl s)
  | some x =>
    by_cases hp : x.phase = .demolishing
    · unfold poll
      simp only [hx, hp]
      split
      · exact .demolishes (hp ▸ mem_of_call? hx)
      · exact .tends (.refl s)
    · exact .tends (tends_poll hx hp b)

/-- A call enters, and joins the lock that it wants first. -/
theorem Orderly.enters (hs : Orderly s) (hd : s.dropped = false)
    (hnew : ∀ x ∈ s.calls, x.id ≠ c) (hq : q ≠ .draining) {a b : Lock}
    (ha : q.wantsLifecycle = false → a = s.lifecycleLock)
    (ha' : q.wantsLifecycle = true → a = s.lifecycleLock.acquire c)
    (hb : q.wantsStartup = false → b = s.startupLock)
    (hb' : q.wantsStartup = true → b = s.startupLock.acquire c) :
    Orderly { s.addCall c q with lifecycleLock := a, startupLock := b } := by
  have hno : ∀ w : CallPhase κ ξ → Bool, ¬s.Wants w c := fun w ⟨p, hp, _⟩ => hnew _ hp rfl
  have hserves : ∀ {w : CallPhase κ ξ → Bool} {l l' : Lock}, l.Serves (s.Wants w) →
      (w q = false → l' = l) → (w q = true → l' = l.acquire c) →
        l'.Serves ((s.addCall c q).Wants w) := by
    intro w l l' hl hno' hyes
    cases hw : w q with
    | false =>
      rw [hno' hw]
      exact hl.congr fun d => by simp [wants_addCall, hw]
    | true =>
      rw [hyes hw]
      exact hl.acquire (hno w) fun d => by simp [wants_addCall, hw]
  refine ⟨?_, hserves hs.lifecycle ha ha', hserves hs.startup hb hb', fun d hmem => ?_, fun h => ?_⟩
  · simp only [addCall, List.map_append, List.map_cons, List.map_nil]
    refine List.nodup_append.2 ⟨hs.distinct, List.nodup_singleton _, fun i hi j hj => ?_⟩
    obtain ⟨x, hx, rfl⟩ := List.mem_map.1 hi
    rw [List.mem_singleton.1 hj]
    exact hnew x hx
  · rcases List.mem_append.1 hmem with hmem | hmem
    · exact hs.drains d hmem
    · exact absurd (Call.mk.inj (List.mem_singleton.1 hmem)).2.symm hq
  · have hd' : s.dropped = true := h
    simp [hd] at hd'

theorem desk_unregister (s : TaskSet κ ξ) (task : TaskRef) :
    (s.unregister task).1.desk = s.desk := by
  unfold unregister
  split
  · rfl
  · exact desk_retire _ _ _

theorem desk_rest (s : TaskSet κ ξ) (l : LoopId) (now : Nat) : (s.rest l now).1.desk = s.desk := by
  unfold rest
  split
  · rfl
  · split
    · exact desk_endLoop s l
    · rfl

theorem desk_pollLoop (s : TaskSet κ ξ) (l : LoopId) (now : Nat) :
    (s.pollLoop l now).1.desk = s.desk := by
  unfold pollLoop
  cases s.loop? l with
  | none => rfl
  | some x =>
    cases hp : x.phase with
    | spawned =>
      simp only [hp]
      exact desk_rest _ l now
    | waiting deadline =>
      simp only [hp]
      split
      · exact desk_endLoop s l
      · split <;> rfl
    | _ =>
      simp only [hp]

theorem desk_fail (s : TaskSet κ ξ) (l : LoopId) (task : TaskRef) (error : Fault) :
    (s.fail l task error).1.desk = s.desk := by
  have hforget : ∀ (s : TaskSet κ ξ) (l : Option LoopId),
      (l.elim s s.forgetLoop).desk = s.desk := by
    intro s l
    cases l with
    | none => rfl
    | some l => exact desk_forgetLoop s l
  unfold fail
  split
  · exact desk_endLoop _ l
  · dsimp only
    split
    · rw [desk_endLoop, hforget]
      rfl
    · rw [desk_setLoop, hforget]
      rfl

theorem desk_ran (s : TaskSet κ ξ) (l : LoopId) (now : Nat) (ending : Ending Unit) :
    (s.ran l now ending).1.desk = s.desk := by
  rcases ran_cases s l now ending with ⟨-, heq⟩ | ⟨x, -, ⟨-, heq⟩ | ⟨error, -, heq⟩⟩
  · rw [heq]
  · rw [heq]
    exact desk_rest s l now
  · rw [heq]
    split
    · exact desk_endLoop (s.warned error) l
    · exact desk_fail (s.warned error) l x.task error

theorem desk_reported (s : TaskSet κ ξ) (l : LoopId) (poolName : String)
    (result : Except PoolError Unit) : (s.reported l poolName result).desk = s.desk := by
  cases result with
  | ok _ => exact desk_endLoop s l
  | error e => exact desk_endLoop _ l

theorem desk_killLoop (s : TaskSet κ ξ) (l : LoopId) : (s.killLoop l).desk = s.desk := by
  unfold killLoop
  split
  · rfl
  · split
    · rfl
    · exact desk_endLoop s l

theorem desk_drop (s : TaskSet κ ξ) :
    s.drop.desk = ({ s with dropped := true } : TaskSet κ ξ).desk := by
  have hroot : (if s.lifecycle == .started then s.cancelRoot else s).desk = s.desk := by
    split
    · exact desk_cancelRoot s
    · rfl
  have hforget : ∀ (s : TaskSet κ ξ) (r : Registration κ ξ),
      (r.loop.elim s s.forgetLoop).desk = s.desk := by
    intro s r
    cases r.loop with
    | none => rfl
    | some l => exact desk_forgetLoop s l
  unfold drop
  generalize (if s.lifecycle == .started then s.cancelRoot else s) = t at hroot
  dsimp only
  rw [desk_forgetRoot, desk_foldl hforget, desk_foldl fun s r => desk_tearDown s r .destroyed]
  show ({ t.desk with dropped := true } : TaskSet κ ξ) = _
  rw [hroot]
  rfl

variable {h : List (SetOccurrence κ ξ)} {e : SetEvent κ ξ}

/-- An event goes on from the set that its call has entered. -/
theorem goes_of_perform (hs : Sound (begun h) s) (hall : allows h s e = true) :
    ∃ u, GoesOn [] (s.entered e) u ∧ (Orderly s → Orderly u) ∧ Goes u (s.perform e).1 := by
  have hstay : ∀ {t : TaskSet κ ξ}, s.entered e = s → Tends s t → (s.perform e).1 = t →
      ∃ u, GoesOn [] (s.entered e) u ∧ (Orderly s → Orderly u) ∧ Goes u (s.perform e).1 := by
    intro t hsame htends hperform
    rw [hsame, hperform]
    exact ⟨s, .refl s, fun h => h, .tends htends⟩
  cases e with
  | begin c request b =>
    obtain ⟨hd, hc⟩ := allows_begin.1 hall
    have hnew : ∀ x ∈ s.calls, x.id ≠ c := fun x hx hid => hc (hid ▸ hs.calls x hx)
    cases request with
    | register task args options order extra =>
      exact ⟨_, goesOn_lockLifecycle _ c, fun ho => ho.enters hd hnew (by simp [Request.phase])
        (by simp [Request.phase, CallPhase.wantsLifecycle]) (fun _ => rfl) (fun _ => rfl)
        (by simp [Request.phase, CallPhase.wantsStartup]), goes_poll _ c b⟩
    | init =>
      exact ⟨_, goesOn_locks _ _ _, fun ho => ho.enters hd hnew (by simp [Request.phase])
        (fun _ => rfl) (by simp [Request.phase, CallPhase.wantsLifecycle])
        (by simp [Request.phase, CallPhase.wantsStartup]) (fun _ => rfl), goes_poll _ c b⟩
    | destroy =>
      exact ⟨_, goesOn_lockLifecycle _ c, fun ho => ho.enters hd hnew (by simp [Request.phase])
        (by simp [Request.phase, CallPhase.wantsLifecycle]) (fun _ => rfl) (fun _ => rfl)
        (by simp [Request.phase, CallPhase.wantsStartup]), goes_poll _ c b⟩
  | poll c b => exact ⟨s, .refl s, fun h => h, goes_poll s c b⟩
  | initialized c result b => exact hstay rfl (tends_initialized s c result b) rfl
  | abandon c =>
    refine hstay (t := s.abandon c) rfl ?_ rfl
    unfold abandon
    split
    · exact ⟨fun ho => ho.endCall c, fun hl => (lifecycle_endCall s c).symm.trans hl⟩
    · exact .refl s
  | unregister task => exact hstay rfl (tends_of_desk (desk_unregister s task)) rfl
  | pollLoop l now => exact hstay rfl (tends_of_desk (desk_pollLoop s l now)) rfl
  | ran l now ending => exact hstay rfl (tends_of_desk (desk_ran s l now ending)) rfl
  | reported l poolName result =>
    exact hstay rfl (tends_of_desk (desk_reported s l poolName result)) rfl
  | killLoop l => exact hstay rfl (tends_of_desk (desk_killLoop s l)) rfl
  | cancelRoot => exact hstay rfl (tends_of_desk (desk_cancelRoot s)) rfl
  | drop =>
    obtain ⟨-, hcalls, -⟩ := allows_drop.1 hall
    have hdropped : Tends s ({ s with dropped := true } : TaskSet κ ξ) :=
      ⟨fun ho => { ho with dropped := fun _ => hcalls }, fun hl => hl⟩
    exact hstay rfl (hdropped.trans (tends_of_desk (desk_drop s))) rfl

theorem orderly_of_perform (hs : Sound (begun h) s) (ho : Orderly s)
    (hall : allows h s e = true) : Orderly (s.perform e).1 := by
  obtain ⟨u, -, hu, hgoes⟩ := goes_of_perform hs hall
  generalize (s.perform e).1 = t at hgoes
  cases hgoes with
  | tends htends => exact htends.orderly (hu ho)
  | demolishes hc => exact (hu ho).demolish hc

/-- The desk of a set is orderly after any history. -/
theorem orderly_of_run (hrun : (setSystem κ ξ).Run h s) : Orderly s := by
  induction hrun with
  | start hstart =>
    obtain ⟨name, pool, rfl⟩ := hstart
    have hnobody : ∀ (w : CallPhase κ ξ → Bool) (c : CallId),
        ¬({ name := name, pool := pool } : TaskSet κ ξ).Wants w c := by
      rintro w c ⟨p, hp, -⟩
      exact absurd hp List.not_mem_nil
    exact ⟨List.nodup_nil, Lock.serves_nobody (hnobody _), Lock.serves_nobody (hnobody _),
      fun c hc => absurd hc List.not_mem_nil, fun _ => rfl⟩
  | next hrun hall ih =>
    exact { orderly_of_perform (sound_of_run hrun) ih hall with }

end TaskSet

end Overseer
