import Overseer.Proofs.Pool.Closed

/-!
# Who is listed as idle

As long as no task of a worker is dropped, nobody who is listed as idle is gone (`manned_of_run`) :
a worker that comes to its end was told to, or has just had a unit, and so is not on the list. Then
the list of idle workers names exactly those who wait for a message (`idle_perm`).
-/

namespace Overseer

variable {υ : Type}

/-- Does a worker wait for a message? -/
def Worker.isWaiting (x : Worker υ) : Bool :=
  match x.phase, x.inbox with
  | .parked, [] => true
  | _, _ => false

theorem Worker.isWaiting_iff {x : Worker υ} :
    x.isWaiting = true ↔ x.phase = .parked ∧ x.inbox = [] := by
  unfold Worker.isWaiting
  split
  · rename_i hphase hinbox
    simp [hphase, hinbox]
  · rename_i hother
    refine ⟨fun h => ?_, fun ⟨hphase, hinbox⟩ => absurd hinbox (hother hphase)⟩
    contradiction

namespace Floor

variable {f f' : Floor υ}

@[simp] theorem map_id_tell (f : Floor υ) (ws : List WorkerId) (m : Message υ) :
    (f.tell ws m).workers.map (·.id) = f.workers.map (·.id) := by
  simp only [tell, List.map_map]
  refine List.map_congr_left fun x _ => ?_
  dsimp only [Function.comp]
  split <;> rfl

@[simp] theorem map_id_setPhase (f : Floor υ) (w : WorkerId) (phase : WorkerPhase υ)
    (inbox : List (Message υ)) :
    (f.setPhase w phase inbox).workers.map (·.id) = f.workers.map (·.id) := by
  simp only [setPhase, List.map_map]
  refine List.map_congr_left fun x _ => ?_
  dsimp only [Function.comp]
  split <;> rfl

/-- Nobody who is listed as idle is gone. -/
def Manned (f : Floor υ) : Prop := f.idle ⊆ f.workers.map (·.id)

theorem Manned.setPhase (hf : f.Manned) (w : WorkerId) (phase : WorkerPhase υ)
    (inbox : List (Message υ)) : (f.setPhase w phase inbox).Manned := by
  unfold Manned
  rw [map_id_setPhase]
  exact hf

theorem Manned.tell {rest : List WorkerId} (hf : f.Manned) (h : rest ⊆ f.idle)
    (ws : List WorkerId) (m : Message υ) :
    (({ f with idle := rest } : Floor υ).tell ws m).Manned := by
  unfold Manned
  rw [map_id_tell]
  exact fun w hw => hf (h hw)

theorem Manned.sheds (hf : f.Manned) (h : f.Sheds f') : f'.Manned := by
  obtain ⟨ws, rest, hall, rfl⟩ := h
  exact hf.tell (hall ▸ List.subset_append_right ws rest) ws .stop

theorem Manned.join (hf : f.Manned) {x : Worker υ} (hx : x ∈ f.workers) :
    (({ f with idle := f.idle ++ [x.id] } : Floor υ).setPhase x.id .parked []).Manned := by
  refine Manned.setPhase (f := { f with idle := f.idle ++ [x.id] }) (fun w hw => ?_) _ _ _
  rcases List.mem_append.1 hw with hw | hw
  · exact hf hw
  · obtain rfl := List.mem_singleton.1 hw
    exact List.mem_map_of_mem hx

/-- Who is not listed can go. -/
theorem Manned.without (hf : f.Manned) {w : WorkerId} (hw : w ∉ f.idle) (n : Nat) :
    (f.without w n).Manned := by
  intro v hv
  obtain ⟨x, hx, rfl⟩ := List.mem_map.1 (hf hv)
  have hne : x.id ≠ w := fun he => hw (he ▸ hv)
  exact List.mem_map_of_mem (List.mem_filter.2 ⟨hx, by simpa using hne⟩)

theorem Manned.attempt {c : CallerId} {u : υ} {r : Submission} (hf : f.Manned)
    (h : f.Attempt c u r f') : f'.Manned := by
  cases h with
  | refuses e hrest => exact fun w hw => hf (hrest.subset hw)
  | waits hrest => exact fun w hw => hf (hrest.subset hw)
  | hands hrest _ => exact hf.tell (fun w hw => hrest.subset (List.mem_cons_of_mem _ hw)) _ _
  | hires hrest _ =>
    intro w hw
    simp only [hire, List.map_append, List.mem_append]
    exact .inl (hf (hrest.subset hw))

/-- If nobody has gone who is listed, and everybody who waits is, the list names those who wait. -/
theorem idle_perm (ht : f.Tidy) (hlisted : f.Listed) (hmanned : f.Manned) :
    f.idle.Perm ((f.workers.filter Worker.isWaiting).map (·.id)) := by
  have hnodup : ((f.workers.filter Worker.isWaiting).map (·.id)).Nodup :=
    ht.nodup.sublist (List.filter_sublist.map _)
  refine (List.perm_ext_iff_of_nodup ht.idle_nodup hnodup).2 fun w => ⟨fun hw => ?_, fun hw => ?_⟩
  · obtain ⟨x, hx, rfl⟩ := List.mem_map.1 (hmanned hw)
    exact List.mem_map_of_mem (List.mem_filter.2 ⟨hx, Worker.isWaiting_iff.2 (ht.waits x hx hw)⟩)
  · obtain ⟨x, hx, rfl⟩ := List.mem_map.1 hw
    obtain ⟨hx, hwaits⟩ := List.mem_filter.1 hx
    obtain ⟨hphase, hinbox⟩ := Worker.isWaiting_iff.1 hwaits
    exact hlisted x hx hphase hinbox

end Floor

namespace Pool

variable {p : Pool υ} {h : List (Occurrence (Pool υ) (PoolEvent υ))} {e : PoolEvent υ}

/-- A worker that runs a unit is not listed as idle. -/
theorem not_idle_of_isBusy (ht : p.floor.Tidy) {w : WorkerId} (hbusy : p.isBusy w = true) :
    w ∉ p.floor.idle := by
  obtain ⟨x, hx, rfl, ⟨u, hphase⟩, -⟩ := unstarted_of_isBusy ht hbusy
  exact ht.not_idle hx (.inl (by simp [hphase]))

theorem manned_perform (ht : p.floor.Tidy) (hp : p.floor.Manned) (hall : Pool.allows h p e = true)
    (hkept : ∀ w, e ≠ .killWorker w) : (p.perform e).1.floor.Manned := by
  cases e with
  | submit c u => exact hp.attempt (floor_attempt p c u)
  | resume c =>
    exact keeps_resume (P := fun q => q.floor.Manned) hp c
      fun u => Floor.Manned.attempt (f := (p.unpark c).floor) hp (floor_attempt (p.unpark c) c u)
  | abandon c =>
    rw [perform, floor_abandon]
    exact hp
  | pollWorker w =>
    rcases pollWorker_cases ht w with ⟨hfloor, -⟩ | ⟨x, u, inbox, -, -, -, hfloor, -⟩ |
      ⟨x, hx, -, -, hinbox, hfloor, -⟩
    · exact hfloor ▸ hp
    · exact hfloor ▸ hp.setPhase x.id _ inbox
    · exact hfloor ▸ hp.without (ht.not_idle hx (.inr (by simp [hinbox]))) _
  | complete w now =>
    rcases floor_complete p w now with hfloor | hfloor
    · exact hfloor ▸ hp.without (not_idle_of_isBusy ht hall) _
    · obtain ⟨x, hx, rfl, -, -⟩ := unstarted_of_isBusy ht hall
      exact hfloor ▸ hp.join hx
  | crash w payload => exact floor_crash p w payload ▸ hp.without (not_idle_of_isBusy ht hall) _
  | killWorker w => exact absurd rfl (hkept w)
  | pollScavenger s now => exact hp.sheds (sheds_pollScavenger ht s now)
  | killScavenger s => exact hp
  | tune size =>
    rcases floor_tune p size with hfloor | ⟨-, n, hfloor⟩
    · exact hfloor ▸ hp
    · exact hfloor ▸ hp
  | release => exact hp.sheds (sheds_release ht)
  | beginRelease now timeout => exact hp.sheds (sheds_beginRelease ht now timeout)
  | reboot now => exact floor_reboot p now ▸ hp
  | drop => exact Floor.Manned.sheds (f := { p.floor with dropped := true }) hp (sheds_drop ht)

/-- As long as no worker is dropped, nobody who is listed as idle is gone. -/
theorem manned_of_run (hrun : (poolSystem υ).Run h p)
    (hkept : ∀ o ∈ h, ∀ w, o.event ≠ .killWorker w) : p.floor.Manned := by
  induction hrun with
  | start hs =>
    obtain ⟨capacity, options, now, p₀, hnew, rfl⟩ := hs
    obtain ⟨c, rfl⟩ := exists_eq_create hnew
    show (create c options now : Pool υ).floor.Manned
    rw [create, floor_debug, floor_startScavenger]
    exact List.nil_subset _
  | @next h p e hrun hall ih =>
    exact manned_perform (tidy_of_run hrun)
      (ih fun o ho => hkept o (List.mem_append_left _ ho)) hall (hkept ⟨p, e⟩ (by simp))

theorem worker?_of_mem (ht : p.floor.Tidy) {x : Worker υ} (hx : x ∈ p.workers) :
    p.worker? x.id = some x := by
  cases hw : p.worker? x.id with
  | none =>
    have hnobody := List.find?_eq_none.1 hw x hx
    simp at hnobody
  | some y =>
    obtain ⟨hy, hid⟩ := mem_of_worker? hw
    rw [List.inj_on_of_nodup_map ht.nodup hy hx hid]

theorem isAlive_iff {w : WorkerId} : p.isAlive w = true ↔ w ∈ p.floor.workers.map (·.id) := by
  simp [isAlive, floor]

end Pool

end Overseer
