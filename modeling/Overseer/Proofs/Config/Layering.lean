import Overseer.Proofs.Config.Records
import Overseer.Proofs.Config.Sorted
import Overseer.Proofs.Config.Words

/-!
# Sources laid over one another

A source is read when it is added, with the environment variables of that time, and from then on
nothing but its snapshot counts. What stands at a path in the end is the result of going through the
sources in the order in which they were added, where each has one word about the path (`stands`). As
a value is told by what stands at each of its paths, this decides what settings are read from
(`gives_of_readable`).

So a source that is silent about a path, such as an optional file that cannot be read, makes no
difference there, wherever it stands among the others.
-/

namespace Overseer

/-- A source, and the environment variables at the time at which it is added. -/
structure Added where
  environment : List (String × String)
  source : Source

namespace Added

/-- A source can be read, or need not be. -/
def IsReadable (a : Added) : Prop :=
  match a.source with
  | .file f => f.entries.isOk = true
  | .optional _ => True
  | .environment start => start.isEmpty = false

instance : DecidablePred IsReadable
  | ⟨_, .file _⟩ => inferInstanceAs (Decidable (_ = _))
  | ⟨_, .optional _⟩ => inferInstanceAs (Decidable True)
  | ⟨_, .environment _⟩ => inferInstanceAs (Decidable (_ = _))

/-- The snapshot of a source, if there is one. -/
def layer? (a : Added) : Option Layer :=
  match a.source.layer? a.environment with
  | .ok l => l
  | .error _ => none

/-- The value of a source. -/
def value? (a : Added) : Option Value := a.layer?.map fun l => .dict l.entries

/-- The word of a source about a path. -/
def word (a : Added) (path : List String) : Value.Word := a.value?.elim .silent (·.word path)

/-- Snapshots of sources, each taken when the source is added. The first source that fails
decides. -/
def snapshots (added : List Added) : Except ConfigError (List Layer) :=
  return (← added.mapM fun a => a.source.layer? a.environment).filterMap id

/-- What stands at a path after each of the sources has had its word about it. -/
def stands (added : List Added) (path : List String) : Option Value :=
  added.foldl (fun before a => (a.word path).over before) ((Value.dict []).head? path)

/-- Settings are read out of this value. -/
def Gives (added : List Added) (v : Value) : Prop :=
  ∃ layers, snapshots added = .ok layers ∧ ∀ (α : Type) (read : Value → Except Mismatch α) (a : α),
    Layer.extract layers read = .ok a ↔ read v = .ok a

variable {a : Added} {added before after : List Added} {path : List String} {v : Value}

/-! ## Snapshots -/

/-- Sources that are added at one time. -/
theorem layers_eq_snapshots (environment : List (String × String)) (sources : List Source) :
    Source.layers environment sources = snapshots (sources.map fun s => ⟨environment, s⟩) := by
  rw [snapshots, List.mapM_map]
  rfl

theorem IsReadable.layer?_eq (h : a.IsReadable) :
    a.source.layer? a.environment = .ok a.layer? := by
  obtain ⟨environment, source⟩ := a
  cases source with
  | file f =>
    have hparsed : f.entries.isOk = true := h
    cases hes : f.entries with
    | error e => simp [hes, Except.isOk, Except.toBool] at hparsed
    | ok es => simp [layer?, Source.layer?, hes, Except.map]
  | optional f => rfl
  | environment start =>
    have hstart : start.isEmpty = false := h
    simp [layer?, Source.layer?, hstart]

theorem snapshots_eq (h : ∀ a ∈ added, a.IsReadable) :
    snapshots added = .ok (added.filterMap layer?) := by
  have hall : added.mapM (fun a => a.source.layer? a.environment) =
      (.ok (added.map layer?) : Except ConfigError _) := by
    induction added with
    | nil => rfl
    | cons a added ih =>
      rw [List.mapM_cons, (h a List.mem_cons_self).layer?_eq,
        ih fun b hb => h b (List.mem_cons_of_mem a hb)]
      rfl
  rw [snapshots, hall]
  show Except.ok ((added.map layer?).filterMap id) = _
  rw [List.filterMap_map]
  rfl

/-- A file that cannot be read and need not be is left out. -/
theorem snapshots_of_unreadable {environment : List (String × String)} {f : File}
    (h : ∀ es, f.entries ≠ .ok es) (before after : List Added) :
    snapshots (before ++ ⟨environment, .optional f⟩ :: after) = snapshots (before ++ after) := by
  have hnone : Source.layer? environment (.optional f) = .ok none := by
    cases hf : f.entries with
    | error e => simp [Source.layer?, hf, Except.toOption]
    | ok es => exact absurd hf (h es)
  simp only [snapshots, List.mapM_append, List.mapM_cons, hnone]
  cases before.mapM fun a => a.source.layer? a.environment with
  | error e => rfl
  | ok ls =>
    cases after.mapM fun a => a.source.layer? a.environment with
    | error e => rfl
    | ok ls' =>
      show Except.ok ((ls ++ none :: ls').filterMap id) = Except.ok ((ls ++ ls').filterMap id)
      simp

theorem isSorted_of_layer? {l : Layer} (h : a.layer? = some l) :
    (Value.dict l.entries).IsSorted := by
  unfold layer? at h
  split at h
  · rename_i hl
    exact Source.isSorted_of_layer? (h ▸ hl)
  · contradiction

/-! ## What stands at a path -/

/-- The value that the sources make together. -/
def merged (added : List Added) : Value := .dict (Layer.merged (added.filterMap layer?))

theorem merged_append (added : List Added) (a : Added) :
    merged (added ++ [a]) = a.value?.elim (merged added) (Value.merge .append (merged added)) := by
  cases hl : a.layer? <;> simp [merged, Layer.merged, value?, hl]

theorem stands_append (before after : List Added) (path : List String) :
    stands (before ++ after) path =
      after.foldl (fun c a => (a.word path).over c) (stands before path) :=
  List.foldl_append

theorem isSorted_of_value? (h : a.value? = some v) : v.IsSorted := by
  obtain ⟨l, hl, rfl⟩ := Option.map_eq_some_iff.mp h
  exact isSorted_of_layer? hl

theorem isSorted_merged (added : List Added) : (merged added).IsSorted := by
  induction added using List.reverseRecOn with
  | nil => exact Value.isSorted_dict_nil
  | append_singleton added a ih =>
    rw [merged_append]
    cases hv : a.value? with
    | none => exact ih
    | some v => exact ih.merge (isSorted_of_value? hv)

/-- One source after the other has its word about a path. -/
theorem head?_merged (added : List Added) (path : List String) :
    (merged added).head? path = stands added path := by
  induction added using List.reverseRecOn with
  | nil => rfl
  | append_singleton added a ih =>
    rw [merged_append, stands_append, List.foldl_cons, List.foldl_nil, ← ih, word]
    cases hv : a.value? with
    | none => rfl
    | some v => exact Value.head?_merge (isSorted_of_value? hv) _ path

/-- A source that is silent about a path makes no difference there. -/
theorem at?_merged_of_silent (h : a.word path = .silent) (before after : List Added) :
    (merged (before ++ a :: after)).at? path = (merged (before ++ after)).at? path := by
  refine Value.at?_eq_of_head? (isSorted_merged _) (isSorted_merged _) fun q => ?_
  have hsilent : a.word (path ++ q) = .silent := by
    unfold word at h ⊢
    cases hv : a.value? with
    | none => rfl
    | some v => exact Value.word_append_of_silent (by simpa [hv] using h) q
  rw [head?_merged, head?_merged, stands_append, stands_append, List.foldl_cons, hsilent]
  rfl

theorem word_of_unmentioned (hne : path ≠ [])
    (h : ∀ q, q ≠ [] → q <+: path ∨ path <+: q → ∀ v ∈ a.value?, v.at? q = none) :
    a.word path = .silent := by
  unfold word
  cases hl : a.layer? with
  | none => simp [value?, hl]
  | some l =>
    have hv : a.value? = some (.dict l.entries) := by simp [value?, hl]
    rw [hv]
    exact Value.word_of_unmentioned hne fun q hq hpath => h q hq hpath _ hv

theorem gives_merged (h : ∀ a ∈ added, a.IsReadable) : Gives added (merged added) :=
  ⟨_, snapshots_eq h, fun _ _ _ => mapError_eq_ok_iff⟩

/-- Sources that can be read give a value, and settings are what can be read out of it. What stands
at each path is what is left when the sources have had their words about it in the order in which
they were added, and no other value has the same there. A file that cannot be read and need not be
has no effect at all, and a source has none on a path of which it mentions no part and nothing
below, wherever it stands among the others. -/
theorem gives_of_readable (h : ∀ a ∈ added, a.IsReadable) : ∃ v, Gives added v ∧ v.IsSorted ∧
    (∀ path, v.head? path = stands added path) ∧
    (∀ u : Value, u.IsSorted → (∀ path, u.head? path = stands added path) → u = v) ∧
    (∀ before environment f after, added = before ++ ⟨environment, .optional f⟩ :: after →
      (∀ es, f.entries ≠ .ok es) → snapshots added = snapshots (before ++ after)) ∧
    ∀ before a after path, added = before ++ a :: after → path ≠ [] →
      (∀ q, q ≠ [] → q <+: path ∨ path <+: q → ∀ u ∈ a.value?, u.at? q = none) →
      ∃ u, Gives (before ++ after) u ∧ v.at? path = u.at? path := by
  refine ⟨merged added, gives_merged h, isSorted_merged added, head?_merged added,
    fun u hu hall => ?_, ?_, ?_⟩
  · exact Value.eq_of_head? hu (isSorted_merged added) fun path =>
      (hall path).trans (head?_merged added path).symm
  · rintro before environment f after rfl hunreadable
    exact snapshots_of_unreadable hunreadable before after
  · rintro before a after path rfl hne hunmentioned
    refine ⟨merged (before ++ after), gives_merged fun b hb => h b ?_,
      at?_merged_of_silent (word_of_unmentioned hne hunmentioned) before after⟩
    exact (List.Sublist.refl before).append (List.sublist_cons_self a after) |>.subset hb

/-- A dictionary and an array, a file that is not there, a number in the place of the dictionary and
another array, and a variable below the number. -/
def hidden : List Added :=
  [⟨[], .file {
      format := .json
      contents := some "\x7b\"a\":\x7b\"x\":1\x7d,\"b\":[1]\x7d".toUTF8 }⟩,
    ⟨[], .optional { format := .yaml, contents := none }⟩,
    ⟨[], .file { format := .json, contents := some "\x7b\"a\":5,\"b\":[2]\x7d".toUTF8 }⟩,
    ⟨[("APP_A__Y", "2")], .environment "APP"⟩]

/-- The settings that stand in an array. -/
def listed : Option Value → List (Option Setting)
  | some (.array xs) => xs.map Value.setting?
  | _ => []

/-- The number hides what was in the dictionary, and the variable does not bring it back. -/
theorem gives_of_readable_hidden : (∀ a ∈ hidden, a.IsReadable) ∧ ∃ v, Gives hidden v ∧
    v.head? ["a", "x"] = none ∧ (v.head? ["a", "y"]).bind Value.setting? = some (.integer 2) ∧
    listed (v.head? ["b"]) = [some (.integer 1), some (.integer 2)] := by
  have hreadable : ∀ a ∈ hidden, a.IsReadable := by decide +kernel
  obtain ⟨v, hgives, -, hstands, -⟩ := gives_of_readable hreadable
  have hx : (stands hidden ["a", "x"]).isNone = true := by decide +kernel
  have hy : (stands hidden ["a", "y"]).bind Value.setting? = some (.integer 2) := by decide +kernel
  have hb : listed (stands hidden ["b"]) = [some (.integer 1), some (.integer 2)] := by
    decide +kernel
  rw [← hstands] at hx hy hb
  exact ⟨hreadable, v, hgives, Option.isNone_iff_eq_none.mp hx, hy, hb⟩

end Added

end Overseer
