import Overseer.Proofs.Sorting
import Overseer.Proofs.Supervision.Sequence
import Overseer.Proofs.Supervision.Stays

/-!
# Who comes in when

A registration is in the registry from the event with which its ticket first stands there.
`entrants` lists the tickets in the order in which they came in. Each comes in once
(`nodup_entrants`). Those that have not left are the `residents`, and they are who is registered
(`tickets_perm`).

What an event makes of the registry can be seen without a look at the loops and at the states of
the tasks: registrations go, or one comes in that a call has brought (`Move.seen`). So what is
registered is what its call has asked for (`requested_of_run`). And the place of a registration is a
matter of its key and of when it came in: registrations are visited by ascending key, and with one
key in the order of entrance (`lined_of_run`).
-/

namespace Overseer

variable {κ ξ : Type}

/-- The registration that comes in. -/
def Deed.enrolled? : Deed → Option CallId
  | .enroll k => some k
  | _ => none

/-- What a registration has come with: the call that has brought it, and what that has asked for. -/
def Registration.origin (r : Registration κ ξ) : CallId × Request κ ξ :=
  (r.ticket, .register r.task r.args r.options r.order r.extra)

namespace TaskSet

variable {s t : TaskSet κ ξ} {us ks : List CallId} {d : Option Deed} {k c : CallId}
  {p q : CallPhase κ ξ} {a : CallId × Request κ ξ} {h : List (SetOccurrence κ ξ)}
  {e : SetEvent κ ξ}

/-! ## What an event makes of the registry -/

/-- What can be seen of the registry after a move without a look at loops and states: some of what
was there before, or that with a registration that a call has brought. -/
theorem Move.seen {α : Type} {g : Registration κ ξ → α}
    (hg : ∀ (r : Registration κ ξ) (l : Option LoopId) (st : TaskState),
      g { r with loop := l, state := st } = g r) (hm : Move s d t) :
    d.bind Deed.enrolled? = none ∧ List.Sublist (List.map g t.registry) (List.map g s.registry) ∨
      ∃ x ∈ s.calls, ∃ r, x.phase.registration? = some r ∧ d = some (.enroll r.ticket) ∧
        List.map g t.registry = List.map g (s.registry.insert r) := by
  have halike : List.map g t.registry = List.map g s.registry →
      List.Sublist (List.map g t.registry) (List.map g s.registry) := fun heq =>
    heq ▸ List.Sublist.refl _
  have hsame : t.registry = s.registry →
      List.Sublist (List.map g t.registry) (List.map g s.registry) := fun heq =>
    halike (congrArg (List.map g) heq)
  have hfewer : ∀ {torn : List TaskRef} {reg : Registry κ ξ} {lc : Lifecycle} {dr : Bool},
      GoesOn torn { s with registry := reg, lifecycle := lc, dropped := dr } t →
      List.Sublist reg s.registry →
      List.Sublist (List.map g t.registry) (List.map g s.registry) := by
    intro torn reg lc dr hgo hsub
    rw [hgo.registry]
    exact hsub.map _
  cases hm with
  | goesOn hgo => exact .inl ⟨rfl, hsame hgo.registry⟩
  | marks id => exact .inl ⟨rfl, halike (Registry.map_modify fun r => hg r _ _)⟩
  | starts b hc hl => exact .inl ⟨rfl, halike (map_startLoops hg _ _)⟩
  | @enrolls c p r hc hp _ =>
    refine .inr ⟨_, hc, r, by rcases hp with rfl | rfl <;> rfl, rfl, ?_⟩
    obtain ⟨u, hgo, heq⟩ := enroll_without s r c
    have hu : List.map g u.registry = List.map g (s.registry.insert r) := by
      rw [hgo.registry]
      rfl
    rw [heq]
    split
    · exact (map_startLoop hg u r.task.id).trans hu
    · exact hu
  | refuses hc hgo => exact .inl ⟨rfl, hsame hgo.registry⟩
  | removes _ _ _ _ hgo _ => exact .inl ⟨rfl, hfewer hgo List.filter_sublist⟩
  | displaces _ _ _ hgo => exact .inl ⟨rfl, hfewer hgo List.filter_sublist⟩
  | demolishes hgo _ => exact .inl ⟨rfl, hfewer hgo (List.nil_sublist _)⟩
  | drops _ hgo _ => exact .inl ⟨rfl, hfewer hgo (List.nil_sublist _)⟩
  | _ => exact .inl ⟨rfl, hsame rfl⟩

theorem Move.entered_tickets (hm : Move s d t) (hs : Sound us s) :
    t.tickets.filter (· ∉ s.tickets) = (d.bind Deed.enrolled?).toList := by
  rcases hm.seen (g := Registration.ticket) fun _ _ _ => rfl with
    ⟨hnone, hsub⟩ | ⟨x, hx, r, hr, rfl, htickets⟩
  · have hsub : t.tickets.Sublist s.tickets := hsub
    rw [hnone]
    exact List.filter_eq_nil_iff.2 fun k hk => by simpa using hsub.subset hk
  · have hnew : r.ticket ∉ s.tickets := hs.own x hx r hr ▸ (hs.new x hx r hr).1
    have hperm : t.tickets.Perm (r.ticket :: s.tickets) := by
      rw [tickets, htickets]
      exact (Registry.insert_perm r s.registry).map _
    have hold : s.tickets.filter (· ∉ s.tickets) = [] :=
      List.filter_eq_nil_iff.2 fun k hk => by simpa using hk
    have hone := hperm.filter (· ∉ s.tickets)
    rw [List.filter_cons, if_pos (by simpa using hnew), hold] at hone
    exact List.perm_singleton.1 hone

/-- The ticket that comes in with a course is that of its deed. -/
theorem Course.entered_tickets (hc : Course s d t) (hs : Sound us s) :
    t.tickets.filter (· ∉ s.tickets) = (d.bind Deed.enrolled?).toList := by
  induction hc with
  | stays s => exact List.filter_eq_nil_iff.2 fun k hk => by simpa using hk
  | quietly hm _ ih =>
    rw [← tickets_of_stays hm.quiet.1]
    exact ih (hm.sound hs)
  | does hm hc _ =>
    rw [tickets_of_stays hc.quiet.1]
    exact hm.entered_tickets hs

/-! ## What has been asked for -/

/-- Calls are about to bring a registration that comes with this. -/
def Brings (s : TaskSet κ ξ) (a : CallId × Request κ ξ) : Prop :=
  ∃ x ∈ s.calls, ∃ r, x.phase.registration? = some r ∧ r.origin = a

theorem Brings.mono (hc : ∀ x ∈ t.calls, x ∈ s.calls) (ha : t.Brings a) : s.Brings a := by
  obtain ⟨x, hx, hr⟩ := ha
  exact ⟨x, hc x hx, hr⟩

theorem Brings.of_setPhase (hc : ⟨c, p⟩ ∈ s.calls) (hq : ∀ r, q.registration? = some r →
      ∃ r', p.registration? = some r' ∧ r'.origin = r.origin)
    (ha : (s.setPhase c q).Brings a) : s.Brings a := by
  obtain ⟨x, hx, r, hr, rfl⟩ := ha
  rcases mem_setPhase hx with rfl | ⟨hx, -⟩
  · exact ⟨_, hc, hq r hr⟩
  · exact ⟨x, hx, r, hr, rfl⟩

/-- No call brings anything else than before. -/
theorem Move.brings (hm : Move s d t) : t.Brings a → s.Brings a := by
  cases hm with
  | goesOn hgo => exact .mono fun x hx => hgo.calls ▸ hx
  | shifts hc hshift =>
    refine .of_setPhase hc fun r hr => ?_
    cases hshift with
    | comeBack r' => exact ⟨r', rfl, by obtain rfl := Option.some.inj hr; rfl⟩
    | goOn current rest => simp at hr
    | _ => contradiction
  | opens hc hl => exact .of_setPhase (s := { s with lifecycle := .starting }) hc (by simp)
  | marks id => exact fun ha => ha
  | finishes c => exact .mono fun x hx => mem_without hx
  | starts b hc hl =>
    refine .mono fun x hx => ?_
    rw [(startLoops_same _ _).2.1] at hx
    exact mem_without hx
  | givesUp hc hl => exact .mono fun x hx => mem_without hx
  | comesLate hc hu => exact .of_setPhase hc fun r hr => ⟨r, hr, rfl⟩
  | prepares hc hl => exact .of_setPhase hc nofun
  | enrolls hc hp hr =>
    refine .mono fun x hx => ?_
    rw [(enroll_same _ _ _).2.1] at hx
    exact mem_without hx
  | refuses hc hgo => exact .mono fun x hx => mem_without (hgo.calls ▸ hx)
  | removes _ _ _ _ hgo _ => exact .mono fun x hx => hgo.calls ▸ hx
  | displaces _ _ _ hgo => exact .mono fun x hx => hgo.calls ▸ hx
  | demolishes hgo _ => exact .mono fun x hx => hgo.calls ▸ hx
  | drops _ hgo _ => exact .mono fun x hx => hgo.calls ▸ hx

/-- The call has begun with the request. -/
def Requests (h : List (SetOccurrence κ ξ)) (a : CallId × Request κ ξ) : Prop :=
  ∃ o ∈ h, ∃ b, o.event = .begin a.1 a.2 b

theorem Requests.append (ha : Requests h a) (h' : List (SetOccurrence κ ξ)) :
    Requests (h ++ h') a := by
  obtain ⟨o, ho, hevent⟩ := ha
  exact ⟨o, List.mem_append_left _ ho, hevent⟩

/-- What is registered, or about to be, has been asked for. -/
structure Requested (h : List (SetOccurrence κ ξ)) (s : TaskSet κ ξ) : Prop where
  registered : ∀ r ∈ s.registry, Requests h r.origin
  coming : ∀ a, s.Brings a → Requests h a

theorem Move.requested (hm : Move s d t) (hs : Requested h s) : Requested h t := by
  refine ⟨fun r hr => ?_, fun a ha => hs.coming a (hm.brings ha)⟩
  have horigin : r.origin ∈ List.map (·.origin) t.registry := List.mem_map_of_mem hr
  rcases hm.seen (g := Registration.origin) fun _ _ _ => rfl with
    ⟨-, hsub⟩ | ⟨x, hx, r', hr', -, heq⟩
  · obtain ⟨r', hr', heq⟩ := List.mem_map.1 (hsub.subset horigin)
    exact heq ▸ hs.registered r' hr'
  · rw [heq] at horigin
    obtain ⟨a, ha, horigin⟩ := List.mem_map.1 horigin
    rw [← horigin]
    rcases Registry.mem_insert.1 ha with rfl | ha
    · exact hs.coming _ ⟨x, hx, _, hr', rfl⟩
    · exact hs.registered _ ha

theorem Requested.entered (hs : Requested h s) : Requested (h ++ [⟨s, e⟩]) (s.entered e) := by
  have hregistered : ∀ r ∈ s.registry, Requests (h ++ [⟨s, e⟩]) r.origin :=
    fun r hr => (hs.registered r hr).append _
  have hcoming : ∀ a, s.Brings a → Requests (h ++ [⟨s, e⟩]) a :=
    fun a ha => (hs.coming a ha).append _
  cases e with
  | begin c request b =>
    refine ⟨hregistered, fun a ha => ?_⟩
    obtain ⟨x, hx, r, hr, rfl⟩ := ha
    rcases List.mem_append.1 hx with hx | hx
    · exact hcoming _ ⟨x, hx, r, hr, rfl⟩
    · obtain rfl := List.mem_singleton.1 hx
      have hbegins : Requests (h ++ [⟨s, .begin c request b⟩]) (c, request) :=
        ⟨_, List.mem_append_right _ (List.mem_singleton_self _), b, rfl⟩
      cases request with
      | register task args options order extra =>
        obtain rfl := Option.some.inj hr
        exact hbegins
      | init => contradiction
      | destroy => contradiction
  | _ => exact ⟨hregistered, hcoming⟩

/-- What is registered is what the call that has brought it has asked for. -/
theorem requested_of_run (hrun : (setSystem κ ξ).Run h s) : Requested h s := by
  induction hrun with
  | start hstart =>
    obtain ⟨name, pool, rfl⟩ := hstart
    refine ⟨fun r hr => absurd hr List.not_mem_nil, fun a ha => ?_⟩
    obtain ⟨x, hx, -⟩ := ha
    exact absurd hx List.not_mem_nil
  | @next h s e hrun hall ih =>
    obtain ⟨d, hcourse, -⟩ := course_of_perform (sound_of_run hrun) hall
    have hnext := hcourse.keeps (P := Requested (h ++ [⟨s, e⟩])) Move.requested ih.entered
    exact ⟨hnext.registered, hnext.coming⟩

/-! ## The order of entrance -/

/-- The tickets that come in with an occurrence. -/
def entrantsOf (o : SetOccurrence κ ξ) : List CallId :=
  ((setSystem κ ξ).after o).tickets.filter (· ∉ o.before.tickets)

/-- The tickets that have come in, in the order in which they did. -/
def entrants (h : List (SetOccurrence κ ξ)) : List CallId := h.flatMap entrantsOf

theorem entrants_append (h : List (SetOccurrence κ ξ)) (o : SetOccurrence κ ξ) :
    entrants (h ++ [o]) = entrants h ++ entrantsOf o := by
  simp [entrants]

/-- Who has come in is registered, or has left. -/
theorem mem_or_hasLeft (hrun : (setSystem κ ξ).Run h s) (hk : k ∈ entrants h) :
    k ∈ s.tickets ∨ HasLeft h k := by
  induction hrun with
  | start _ => cases hk
  | @next h s e hrun hall ih =>
    have hlast : (⟨s, e⟩ : SetOccurrence κ ξ) ∈ h ++ [⟨s, e⟩] := by simp
    have hbefore : k ∈ s.tickets ∨ HasLeft h k →
        k ∈ ((setSystem κ ξ).happen s e).1.tickets ∨ HasLeft (h ++ [⟨s, e⟩]) k := by
      rintro (hin | ⟨o, ho, hleft⟩)
      · by_cases hstays : k ∈ ((setSystem κ ξ).happen s e).1.tickets
        · exact .inl hstays
        · exact .inr ⟨_, hlast, hin, hstays⟩
      · exact .inr ⟨o, List.mem_append_left _ ho, hleft⟩
    rw [entrants_append] at hk
    rcases List.mem_append.1 hk with hk | hk
    · exact hbefore (ih hk)
    · exact .inl (List.mem_filter.1 hk).1

/-- Nobody comes in twice. -/
theorem nodup_entrants (hrun : (setSystem κ ξ).Run h s) : (entrants h).Nodup := by
  induction hrun with
  | start _ => exact List.nodup_nil
  | @next h s e hrun hall ih =>
    rw [entrants_append]
    have hafter : ((setSystem κ ξ).happen s e).1.tickets.Nodup :=
      (sound_of_run (hrun.next hall)).tickets
    refine List.nodup_append.2 ⟨ih, hafter.filter _, fun k hk j hj hsame => ?_⟩
    subst hsame
    obtain ⟨hin, hnew⟩ := List.mem_filter.1 hj
    have hnew : k ∉ s.tickets := by simpa using hnew
    obtain ⟨o, ho, hleft⟩ := (mem_or_hasLeft hrun hk).resolve_left hnew
    exact not_mem_of_hasLeft (hrun.next hall) ⟨o, List.mem_append_left _ ho, hleft⟩ hin

/-- Registrations are visited by ascending key, and with one key in the order in which they came
in. -/
structure Lined (ks : List CallId) (s : TaskSet κ ξ) : Prop where
  known : ∀ k ∈ s.tickets, k ∈ ks
  lined : s.places.Pairwise fun x y =>
    x.sortKey < y.sortKey ∨ x.sortKey = y.sortKey ∧ [x.ticket, y.ticket].Sublist ks

theorem Lined.sublist (hs : Lined ks s) (hsub : t.places.Sublist s.places) : Lined ks t where
  known k hk := by
    have htickets : ∀ u : TaskSet κ ξ, u.tickets = u.places.map (·.ticket) := fun u => by
      simp [tickets, places, Registration.place]
    rw [htickets] at hk
    refine hs.known k ?_
    rw [htickets]
    exact (hsub.map _).subset hk
  lined := hs.lined.sublist hsub

theorem Lined.registry (hs : Lined ks s) : List.Pairwise (fun a b => a.sortKey < b.sortKey ∨
    a.sortKey = b.sortKey ∧ [a.ticket, b.ticket].Sublist ks) s.registry :=
  List.pairwise_map.1 hs.lined

/-- Who comes in is the last with its key, and the last of the entrants. -/
theorem Move.lined (hm : Move s d t) (hs : Lined ks s) :
    Lined (ks ++ (d.bind Deed.enrolled?).toList) t := by
  rcases hm.seen (g := Registration.place) fun _ _ _ => rfl with
    ⟨hnone, hsub⟩ | ⟨x, hx, r, hr, rfl, hplaces⟩
  · rw [hnone, Option.toList_none, List.append_nil]
    exact hs.sublist hsub
  · have hmore : ∀ {a b : CallId}, [a, b].Sublist ks → [a, b].Sublist (ks ++ [r.ticket]) :=
      fun h => h.trans (List.sublist_append_left _ _)
    have htickets : t.tickets = List.map (·.ticket) (s.registry.insert r) := by
      have hview : ∀ reg : Registry κ ξ, List.map (·.ticket) reg =
          (List.map Registration.place reg).map (·.ticket) := fun reg => by
        simp [Registration.place]
      rw [tickets, hview, hplaces, ← hview]
    have hreg := hs.registry
    refine ⟨fun k hk => ?_, ?_⟩
    · rw [htickets] at hk
      obtain ⟨a, ha, rfl⟩ := List.mem_map.1 hk
      rcases Registry.mem_insert.1 ha with rfl | ha
      · exact List.mem_append_right _ (List.mem_singleton_self _)
      · exact List.mem_append_left _ (hs.known _ (List.mem_map_of_mem ha))
    · rw [places, hplaces]
      refine List.pairwise_map.2 (Registry.insert_of_pairwise
        (hreg.imp fun h => h.imp_right (And.imp_right hmore))
        (hreg.imp fun h => h.elim Nat.le_of_lt fun h => Nat.le_of_eq h.1)
        (fun a ha hle => ?_) fun a ha hless => .inl hless)
      rcases Nat.lt_or_eq_of_le hle with hless | hsame
      · exact .inl hless
      · have hin : [a.ticket].Sublist ks :=
          List.singleton_sublist.2 (hs.known _ (List.mem_map_of_mem ha))
        exact .inr ⟨hsame, hin.append (List.Sublist.refl [r.ticket])⟩

theorem Course.lined (hc : Course s d t) (hs : Lined ks s) :
    Lined (ks ++ (d.bind Deed.enrolled?).toList) t := by
  induction hc generalizing ks with
  | stays s => simpa using hs
  | quietly hm _ ih => exact ih (by simpa using hm.lined hs)
  | does hm _ ih => simpa using ih (hm.lined hs)

/-- A set visits its tasks by ascending key, and those with one key in the order in which they came
in, after any history. -/
theorem lined_of_run (hrun : (setSystem κ ξ).Run h s) : Lined (entrants h) s := by
  induction hrun with
  | start hstart =>
    obtain ⟨name, pool, rfl⟩ := hstart
    exact ⟨nofun, List.Pairwise.nil⟩
  | @next h s e hrun hall ih =>
    have hs := sound_of_run hrun
    obtain ⟨d, hcourse, -⟩ := course_of_perform hs hall
    have hregistry : (s.entered e).registry = s.registry := by cases e <;> rfl
    have hentered : Lined (entrants h) (s.entered e) :=
      ih.sublist (by rw [places, hregistry]; rfl)
    have htickets : (s.entered e).tickets = s.tickets := by rw [tickets, hregistry]; rfl
    have hnext := hcourse.lined hentered
    rw [← hcourse.entered_tickets (hs.entered hall), htickets] at hnext
    rw [entrants_append]
    exact ⟨hnext.known, hnext.lined⟩

/-- Who is registered has come in and not left. -/
theorem mem_tickets_iff (hrun : (setSystem κ ξ).Run h s) :
    k ∈ s.tickets ↔ k ∈ entrants h ∧ ¬ HasLeft h k :=
  ⟨fun hk => ⟨(lined_of_run hrun).known k hk, fun hleft => not_mem_of_hasLeft hrun hleft hk⟩,
    fun ⟨hk, hno⟩ => (mem_or_hasLeft hrun hk).resolve_right hno⟩

/-- The tickets that have come in and not left, in the order in which they came in. -/
def residents (h : List (SetOccurrence κ ξ)) : List CallId :=
  (entrants h).filter fun k => ¬ HasLeft h k

theorem nodup_residents (hrun : (setSystem κ ξ).Run h s) : (residents h).Nodup :=
  (nodup_entrants hrun).filter _

/-- The residents are registered, and nobody else is. -/
theorem tickets_perm (hrun : (setSystem κ ξ).Run h s) : s.tickets.Perm (residents h) :=
  (List.perm_ext_iff_of_nodup (sound_of_run hrun).tickets (nodup_residents hrun)).2 fun k => by
    simp [residents, mem_tickets_iff hrun]

/-- Of two with one key, the one who came in first is visited first. -/
theorem lined_residents (hrun : (setSystem κ ξ).Run h s) :
    List.Pairwise (fun a b => a.sortKey < b.sortKey ∨
      a.sortKey = b.sortKey ∧ [a.ticket, b.ticket].Sublist (residents h)) s.registry := by
  refine (lined_of_run hrun).registry.imp_of_mem fun {a b} ha hb hab => hab.imp_right
    fun ⟨hsame, hpair⟩ => ⟨hsame, ?_⟩
  have hstays : ∀ r ∈ s.registry, ¬ HasLeft h r.ticket := fun r hr =>
    ((mem_tickets_iff hrun).1 (List.mem_map_of_mem hr)).2
  simpa [residents, hstays a ha, hstays b hb] using hpair.filter fun k => ¬ HasLeft h k

end TaskSet

end Overseer
