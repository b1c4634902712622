import Mathlib.Data.List.Perm.Basic
import Overseer.Proofs.Pool.Steps

/-!
# Every unit that is accepted is started once

A history is read as four ledgers: the units that were offered, and of those the ones that were
accepted, refused and withdrawn; and as the list of who started what (`starts`). Two balances hold
at every moment. What was accepted is what was started, together with what workers have been
handed and not started, and what went down with the tasks of workers (`handed_of_run`). What was
offered is what was accepted, refused and withdrawn, together with what parked callers hold
(`offers_of_run`).

So as long as no task of a worker is dropped, which only the end of a runtime does, every accepted
unit is started by one worker and once, as soon as everybody has had a turn, and no other unit is
started at all (`runs_once`).
-/

namespace Overseer

variable {υ : Type}

/-! ## What is handed and what waits -/

/-- The entry with the key of `x` and the entries with other keys are all of them. -/
theorem perm_cons_filter {α : Type} {key : α → Nat} {xs : List α} (h : (xs.map key).Nodup)
    {x : α} (hx : x ∈ xs) : xs.Perm (x :: xs.filter fun y => key y != key x) := by
  induction xs with
  | nil => cases hx
  | cons y ys ih =>
    obtain ⟨hy, hys⟩ := List.nodup_cons.1 h
    rcases List.mem_cons.1 hx with rfl | hx
    · have hothers : ys.filter (fun y => key y != key x) = ys := by
        refine List.filter_eq_self.2 fun z hz => ?_
        have hne : key z ≠ key x := fun he => hy (he ▸ List.mem_map_of_mem hz)
        simpa using hne
      rw [List.filter_cons_of_neg (by simp), hothers]
    · have hne : key y ≠ key x := fun he => hy (he ▸ List.mem_map_of_mem hx)
      rw [List.filter_cons_of_pos (by simpa using hne)]
      exact ((ih hys hx).cons y).trans (.swap x y _)

namespace Floor

variable {f f' : Floor υ} {t : Traffic υ}

/-- The units that workers have been handed and have not started. -/
def handed (f : Floor υ) : List υ := f.workers.flatMap Worker.unstarted

theorem handed_forget (f : Floor υ) (c : CallerId) : (f.forget c).handed = f.handed := rfl

/-- The units of parked callers. -/
def parked (f : Floor υ) : List υ := f.callers.map Caller.unit

/-- What one worker has, and what the others have. -/
theorem Tidy.split (hf : f.Tidy) {x : Worker υ} (hx : x ∈ f.workers) {α : Type}
    (g : Worker υ → List α) :
    (f.workers.flatMap g).Perm (g x ++ (f.workers.filter (·.id != x.id)).flatMap g) :=
  (perm_cons_filter hf.nodup hx).flatMap_right _

/-- A change to one worker changes what that worker has. -/
theorem Tidy.split_map (hf : f.Tidy) {x : Worker υ} (hx : x ∈ f.workers) {m : Worker υ → Worker υ}
    (hm : ∀ y, y.id ≠ x.id → m y = y) {α : Type} (g : Worker υ → List α) :
    ((f.workers.map m).flatMap g).Perm
      (g (m x) ++ (f.workers.filter (·.id != x.id)).flatMap g) := by
  have hothers : (f.workers.filter (·.id != x.id)).map m = f.workers.filter (·.id != x.id) := by
    refine (List.map_congr_left fun y hy => ?_).trans (List.map_id' _)
    have hne : y.id ≠ x.id := by simpa using (List.mem_filter.1 hy).2
    exact hm y hne
  have hsplit := (perm_cons_filter hf.nodup hx).map m
  rw [List.map_cons, hothers] at hsplit
  exact hsplit.flatMap_right _

/-- A worker has one unit at most, the one that it runs included. -/
theorem Tidy.length_held_le (hf : f.Tidy) {x : Worker υ} (hx : x ∈ f.workers) :
    x.held.length ≤ 1 := by
  unfold Worker.held Worker.unstarted
  rcases hf.alone x hx with hinbox | ⟨hphase, m, hinbox⟩
  · cases hphase : x.phase <;> simp [hinbox, units]
  · rw [hphase, hinbox]
    exact List.length_filterMap_le _ [m]

/-- A worker that takes up or ends a unit lets go of what it was handed. -/
theorem handed_setPhase (hf : f.Tidy) {x : Worker υ} (hx : x ∈ f.workers)
    (phase : WorkerPhase υ) (hphase : ∀ u, phase ≠ .spawned u) :
    (x.unstarted ++ (f.setPhase x.id phase []).handed).Perm f.handed := by
  have hnothing : ({ x with phase := phase, inbox := [] } : Worker υ).unstarted = [] := by
    unfold Worker.unstarted
    split
    · rename_i u he
      exact absurd he (hphase u)
    · rfl
  have hmap := hf.split_map hx (m := fun y =>
    if y.id == x.id then { y with phase := phase, inbox := [] } else y)
    (fun y hne => by rw [if_neg (by simpa using hne)]) Worker.unstarted
  simp only [beq_self_eq_true, if_true, hnothing, List.nil_append] at hmap
  exact (hmap.append_left _).trans (hf.split hx _).symm

/-- Nobody is handed anything by being told to exit. -/
theorem handed_tell_stop (f : Floor υ) (ws : List WorkerId) :
    (f.tell ws .stop).handed = f.handed := by
  have hsame : ∀ x : Worker υ, ({ x with inbox := x.inbox ++ [.stop] } : Worker υ).unstarted =
      x.unstarted := by
    intro x
    have hunits : units (x.inbox ++ [.stop]) = units x.inbox := by
      simp [units, Message.unit?]
    simp only [Worker.unstarted, hunits]
  simp only [handed, tell, List.flatMap_map]
  refine List.flatMap_congr fun x _ => ?_
  split
  · exact hsame x
  · rfl

theorem handed_tell_unit (hf : f.Tidy) {w : WorkerId} (hw : w ∈ f.workers.map (·.id)) (u : υ) :
    (f.tell [w] (.unit u)).handed.Perm (f.handed ++ [u]) := by
  obtain ⟨x, hx, rfl⟩ := List.mem_map.1 hw
  have hmore : ({ x with inbox := x.inbox ++ [.unit u] } : Worker υ).unstarted =
      x.unstarted ++ [u] := by
    have hunits : units (x.inbox ++ [.unit u]) = units x.inbox ++ [u] := by
      simp [units, Message.unit?]
    unfold Worker.unstarted
    dsimp only
    rw [hunits]
    split <;> rfl
  have hmap := hf.split_map hx (m := fun y =>
    if y.id ∈ [x.id] then { y with inbox := y.inbox ++ [.unit u] } else y)
    (fun y hne => by rw [if_neg (by simpa using hne)]) Worker.unstarted
  rw [if_pos (List.mem_singleton_self _), hmore, List.append_assoc] at hmap
  refine hmap.trans ?_
  have hsplit := (hf.split hx Worker.unstarted).append_right [u]
  rw [List.append_assoc] at hsplit
  exact (List.perm_append_comm.append_left _).trans hsplit.symm

/-! ## What a step does to both balances -/

theorem Attempt.handed {c : CallerId} {u : υ} {r : Submission} (hf : f.Tidy)
    (h : f.Attempt c u r f') : f'.handed.Perm (f.handed ++ (Traffic.answered u r).accepted) := by
  cases h with
  | refuses e _ => rw [Traffic.answered, List.append_nil]; exact .refl _
  | waits _ => rw [Traffic.answered, List.append_nil]; exact .refl _
  | hands hrest hw =>
    have hshrunk := hf.shrink ((List.sublist_cons_self _ _).subperm.trans hrest)
    exact handed_tell_unit hshrunk hw u
  | hires _ _ =>
    simp only [Floor.handed, hire, List.flatMap_append, List.flatMap_singleton]
    exact .refl _

theorem Attempt.parked {c : CallerId} {u : υ} {r : Submission} (h : f.Attempt c u r f') :
    ((Traffic.answered u r).accepted ++ (Traffic.answered u r).refused ++ f'.parked).Perm
      (f.parked ++ [u]) := by
  have hback : ([u] ++ f.parked).Perm (f.parked ++ [u]) := List.perm_append_comm
  cases h with
  | refuses e _ => exact hback
  | waits _ =>
    simp only [Floor.parked, List.map_append]
    exact .refl _
  | hands _ _ => exact hback
  | hires _ _ => exact hback

/-- A worker that starts a unit had no other. -/
theorem Tidy.unstarted_eq (hf : f.Tidy) {x : Worker υ} {u : υ} {inbox : List (Message υ)}
    (hx : x ∈ f.workers)
    (h : x.phase = .spawned u ∧ inbox = x.inbox ∨ x.phase = .parked ∧ x.inbox = .unit u :: inbox) :
    x.unstarted = [u] ∧ inbox = [] := by
  rcases h with ⟨hphase, rfl⟩ | ⟨hphase, hinbox⟩
  · have hnil := hf.inbox_eq_nil hx (by simp [hphase])
    exact ⟨by simp [Worker.unstarted, hphase, hnil, units], hnil⟩
  · have halone := hf.alone x hx
    obtain rfl : inbox = [] := by simpa [hphase, hinbox] using halone
    exact ⟨by simp [Worker.unstarted, hphase, hinbox, units, Message.unit?], rfl⟩

/-- What is handed out is what is started, and what is lost. -/
theorem Step.handed (hf : f.Tidy) (h : f.Step t f') :
    (t.started.map Prod.snd ++ f'.handed ++ t.lost).Perm (f.handed ++ t.accepted) := by
  cases h with
  | rests => simp
  | submits h => simpa using h.handed hf
  | @resumes x _ _ _ h =>
    have hforgotten : (f.forget x.id).Tidy := { hf with }
    simpa [handed_forget] using h.handed hforgotten
  | withdraws _ =>
    simp only [List.map_nil, List.nil_append, List.append_nil]
    exact .refl _
  | @starts x u inbox hx hunit =>
    obtain ⟨hone, rfl⟩ := hf.unstarted_eq hx hunit
    have hgone := handed_setPhase hf hx (.busy u) (by simp)
    rw [hone] at hgone
    simpa using hgone
  | @joins x _ hx hphase =>
    have hnone : x.unstarted = [] := by
      rw [Worker.unstarted, hphase, hf.inbox_eq_nil hx (by simp [hphase])]
      rfl
    have hgone := handed_setPhase hf hx .parked (by simp)
    rw [hnone, List.nil_append] at hgone
    simp only [List.map_nil, List.nil_append, List.append_nil]
    exact hgone
  | leaves hx _ =>
    have hsplit := (hf.split hx Worker.unstarted).symm
    simp only [List.map_nil, List.nil_append, List.append_nil]
    exact List.perm_append_comm.trans hsplit
  | dismisses _ _ =>
    rw [handed_tell_stop]
    simp only [List.map_nil, List.nil_append, List.append_nil]
    exact .refl _
  | resizes _ =>
    simp only [List.map_nil, List.nil_append, List.append_nil]
    exact .refl _

/-- A caller that is parked holds its unit until it is answered or dropped. -/
theorem Step.parked (hc : (f.callers.map (·.id)).Nodup) (h : f.Step t f') :
    (t.accepted ++ t.refused ++ t.withdrawn ++ f'.parked).Perm (f.parked ++ t.offered) := by
  have hforgotten : ∀ {x : Caller υ}, x ∈ f.callers →
      f.parked.Perm (x.unit :: (f.forget x.id).parked) :=
    fun hx => (perm_cons_filter hc hx).map Caller.unit
  cases h with
  | submits h => simpa using h.parked
  | resumes hx h =>
    have hback := (List.perm_append_singleton _ _).trans (hforgotten hx).symm
    simpa using h.parked.trans hback
  | withdraws hx => simpa using (hforgotten hx).symm
  | _ =>
    simp only [List.nil_append, List.append_nil]
    exact .refl _

end Floor

/-! ## Histories as ledgers -/

section Ledgers

variable (h : List (Occurrence (Pool υ) (PoolEvent υ)))

/-- What every event of a history did with units. -/
def traffics : List (Traffic υ) := h.map fun o => o.before.traffic o.event

def offers : List υ := (traffics h).flatMap Traffic.offered

def acceptances : List υ := (traffics h).flatMap Traffic.accepted

def refusals : List υ := (traffics h).flatMap Traffic.refused

def withdrawals : List υ := (traffics h).flatMap Traffic.withdrawn

/-- Which worker has started which unit. -/
def starts : List (WorkerId × υ) := (traffics h).flatMap Traffic.started

def losses : List υ := (traffics h).flatMap Traffic.lost

end Ledgers

namespace Pool

variable {p : Pool υ} {h : List (Occurrence (Pool υ) (PoolEvent υ))}

/-- One more event is one more entry in a ledger. -/
theorem ledger_append {α : Type} (column : Traffic υ → List α) (p : Pool υ) (e : PoolEvent υ) :
    (traffics (h ++ [⟨p, e⟩])).flatMap column =
      (traffics h).flatMap column ++ column (p.traffic e) := by
  simp [traffics]

theorem workers_of_start (hs : (poolSystem υ).starts p) : p.workers = [] :=
  List.length_eq_zero_iff.1
    (Nat.le_zero.1 (running_of_start hs ▸ (tidy_of_run (.start hs)).slots))

/-- What was accepted was started, or is handed to a worker, or was lost with one. -/
theorem handed_of_run (hrun : (poolSystem υ).Run h p) :
    ((starts h).map Prod.snd ++ p.floor.handed ++ losses h).Perm (acceptances h) := by
  classical
  induction hrun with
  | @start p hs =>
    have hnobody : p.floor.workers = [] := workers_of_start hs
    simp [starts, losses, acceptances, traffics, Floor.handed, hnobody]
  | @next h p e hrun hall ih =>
    have hstep : ((p.traffic e).started.map Prod.snd ++
        ((poolSystem υ).happen p e).1.floor.handed ++ (p.traffic e).lost).Perm
          (p.floor.handed ++ (p.traffic e).accepted) :=
      (step_of_perform (tidy_of_run hrun) hall).handed (tidy_of_run hrun)
    -- the order is lost between workers, so the step is added to the ledgers by counting
    refine List.perm_iff_count.2 fun u => ?_
    have hbefore := ih.count_eq u
    have hnow := hstep.count_eq u
    simp only [starts, losses, acceptances, ledger_append, List.map_append, List.count_append]
      at hbefore hnow ⊢
    omega

/-- What was offered was accepted, refused or withdrawn, or waits with its caller. -/
theorem offers_of_run (hrun : (poolSystem υ).Run h p) :
    (acceptances h ++ refusals h ++ withdrawals h ++ p.floor.parked).Perm (offers h) := by
  classical
  induction hrun with
  | @start p hs =>
    have hnobody : p.callers = [] := by
      have hknown := (owes_of_run (.start hs)).begun
      have hcallers := (owes_of_run (.start hs)).known
      rw [List.eq_nil_of_subset_nil hknown] at hcallers
      exact List.map_eq_nil_iff.1 hcallers.eq_nil
    simp [acceptances, refusals, withdrawals, offers, traffics, Floor.parked, floor, hnobody]
  | @next h p e hrun hall ih =>
    have hids : (p.floor.callers.map (·.id)).Nodup :=
      (owes_of_run hrun).known.nodup_iff.2 (owes_of_run hrun).nodup
    have hstep : ((p.traffic e).accepted ++ (p.traffic e).refused ++ (p.traffic e).withdrawn ++
        ((poolSystem υ).happen p e).1.floor.parked).Perm
          (p.floor.parked ++ (p.traffic e).offered) :=
      (step_of_perform (tidy_of_run hrun) hall).parked hids
    refine List.perm_iff_count.2 fun u => ?_
    have hbefore := ih.count_eq u
    have hnow := hstep.count_eq u
    simp only [acceptances, refusals, withdrawals, offers, ledger_append, List.count_append]
      at hbefore hnow ⊢
    omega

/-- What was started, and what was refused or withdrawn, was offered, each time anew. -/
theorem subperm_offers (hrun : (poolSystem υ).Run h p) :
    ((starts h).map Prod.snd ++ (refusals h ++ withdrawals h)).Subperm (offers h) := by
  have hstarted : ((starts h).map Prod.snd).Subperm (acceptances h) := by
    have hhanded := handed_of_run hrun
    rw [List.append_assoc] at hhanded
    exact (List.sublist_append_left _ _).subperm.trans hhanded.subperm
  have hoffers := offers_of_run hrun
  rw [List.append_assoc (acceptances h)] at hoffers
  exact ((List.subperm_append_right _).2 hstarted).trans
    ((List.sublist_append_left _ _).subperm.trans hoffers.subperm)

/-- A unit that was offered once and refused is not started. -/
theorem not_started_of_refused [DecidableEq υ] (hrun : (poolSystem υ).Run h p) {u : υ}
    (honce : (offers h).count u ≤ 1) (hu : u ∈ refusals h ++ withdrawals h) (w : WorkerId) :
    (w, u) ∉ starts h := by
  intro hstarted
  have hcount := (subperm_offers hrun).count_le u
  have hrefused := List.count_pos_iff.2 hu
  have hstarts : 0 < ((starts h).map Prod.snd).count u :=
    List.count_pos_iff.2 (List.mem_map_of_mem (f := Prod.snd) hstarted)
  rw [List.count_append] at hcount
  omega

/-- Only the task of a worker that is dropped takes a unit with it. -/
theorem losses_eq_nil (hkept : ∀ o ∈ h, ∀ w, o.event ≠ .killWorker w) : losses h = [] := by
  refine List.flatMap_eq_nil_iff.2 fun t ht => ?_
  obtain ⟨o, ho, rfl⟩ := List.mem_map.1 ht
  exact lost_eq_nil (hkept o ho)

/-- When everybody has had a turn, everything that was handed out is started. -/
theorem handed_of_isQuiet (ht : p.floor.Tidy) (hquiet : p.isQuiet = true) :
    p.floor.handed = [] := by
  simp only [isQuiet, Bool.and_eq_true, List.all_eq_true] at hquiet
  refine List.flatMap_eq_nil_iff.2 fun x hx => ?_
  have hturn := hquiet.2 x hx
  cases hphase : x.phase with
  | spawned u => simp [hphase] at hturn
  | busy u =>
    rw [Worker.unstarted, hphase, ht.inbox_eq_nil hx (by simp [hphase])]
    rfl
  | parked =>
    have hinbox : x.inbox = [] := by simpa [hphase] using hturn
    rw [Worker.unstarted, hphase, hinbox]
    rfl

/-- Whatever happens to a pool whose workers are not dropped: every unit that was accepted is
handed to a worker or has been started, and everything is started once everybody has had a turn;
every unit that was offered is accepted, refused or withdrawn, or waits with its caller. If no two
calls brought one unit, an accepted unit is started by exactly one worker and only once, and one
that was refused or withdrawn by none. No worker ever has two units. -/
theorem runs_once (hrun : (poolSystem υ).Run h p)
    (hkept : ∀ o ∈ h, ∀ w, o.event ≠ .killWorker w) :
    ((starts h).map Prod.snd ++ p.floor.handed).Perm (acceptances h) ∧
    (p.isQuiet = true → p.floor.handed = []) ∧
    (acceptances h ++ refusals h ++ withdrawals h ++ p.floor.parked).Perm (offers h) ∧
    ((offers h).Nodup →
      ((starts h).map Prod.snd).Nodup ∧
      (p.isQuiet = true → ∀ u ∈ acceptances h, ∃! w, (w, u) ∈ starts h) ∧
      ∀ u ∈ refusals h ++ withdrawals h, ∀ w, (w, u) ∉ starts h) ∧
    ∀ x ∈ p.workers, x.held.length ≤ 1 := by
  have htidy := tidy_of_run hrun
  have hhanded := handed_of_run hrun
  rw [losses_eq_nil hkept, List.append_nil] at hhanded
  have hoffers := offers_of_run hrun
  refine ⟨hhanded, handed_of_isQuiet htidy, hoffers, fun hnodup => ?_,
    fun x hx => htidy.length_held_le hx⟩
  have hall := hoffers.nodup_iff.2 hnodup
  rw [List.append_assoc, List.append_assoc] at hall
  obtain ⟨haccepted, -, hapart⟩ := List.nodup_append.1 hall
  have honce : ((starts h).map Prod.snd).Nodup :=
    (List.nodup_append.1 (hhanded.nodup_iff.2 haccepted)).1
  refine ⟨honce, fun hquiet u hu => ?_, fun u hu w hw => ?_⟩
  · rw [handed_of_isQuiet htidy hquiet, List.append_nil] at hhanded
    obtain ⟨⟨w, v⟩, hw, rfl⟩ := List.mem_map.1 (hhanded.mem_iff.2 hu)
    refine ⟨w, hw, fun w' hw' => ?_⟩
    exact congrArg Prod.fst (List.inj_on_of_nodup_map honce hw' hw rfl)
  · have hu' : u ∈ refusals h ++ (withdrawals h ++ p.floor.parked) := by
      rw [← List.append_assoc]
      exact List.mem_append_left _ hu
    have hstarted : u ∈ acceptances h :=
      hhanded.mem_iff.1 (List.mem_append_left _ (List.mem_map_of_mem (f := Prod.snd) hw))
    exact hapart u hstarted u hu' rfl

/-- One worker at most. The second unit waits for the first to end, the call of the third is
dropped before, and the fourth comes after the pool was released. -/
theorem runs_once_queued : ∃ (h : List (Occurrence (Pool Nat) (PoolEvent Nat))) (p : Pool Nat),
    (poolSystem Nat).Run h p ∧ (∀ o ∈ h, ∀ w, o.event ≠ .killWorker w) ∧ p.isQuiet = true ∧
      (offers h).Nodup ∧ 11 ∈ acceptances h ∧ 12 ∈ withdrawals h ∧ 13 ∈ refusals h ∧
      (∃! w, (w, 11) ∈ starts h) ∧ (∀ w, (w, 12) ∉ starts h) ∧ ∀ w, (w, 13) ∉ starts h := by
  have hstart : (poolSystem Nat).starts (Pool.create (some 1) {} 0).collect.2 :=
    ⟨1, {}, 0, _, rfl, rfl⟩
  obtain ⟨h, p, hrun, hcheck⟩ := System.exists_run_of_replay hstart
    [.submit 0 10, .submit 1 11, .submit 2 12, .pollWorker 0, .abandon 2, .complete 0 3, .resume 1,
      .pollWorker 0, .release, .submit 3 13]
    (fun h p => (h.all fun o => match o.event with | .killWorker _ => false | _ => true) &&
      p.isQuiet && decide (offers h).Nodup && decide (11 ∈ acceptances h) &&
      decide (12 ∈ withdrawals h) && decide (13 ∈ refusals h)) (by decide)
  simp only [Bool.and_eq_true, decide_eq_true_eq, List.all_eq_true] at hcheck
  obtain ⟨⟨⟨⟨⟨hevents, hquiet⟩, hnodup⟩, haccepted⟩, hwithdrawn⟩, hrefused⟩ := hcheck
  have hkept : ∀ o ∈ h, ∀ w, o.event ≠ .killWorker w := by
    intro o ho w he
    have := hevents o ho
    rw [he] at this
    contradiction
  obtain ⟨-, -, -, hcases, -⟩ := runs_once hrun hkept
  obtain ⟨-, hstarted, hnever⟩ := hcases hnodup
  exact ⟨h, p, hrun, hkept, hquiet, hnodup, haccepted, hwithdrawn, hrefused,
    hstarted hquiet 11 haccepted, hnever 12 (List.mem_append_right _ hwithdrawn),
    hnever 13 (List.mem_append_left _ hrefused)⟩

end Pool

end Overseer
