import Overseer.Proofs.Config.Records
import Overseer.Proofs.Config.Sorted

/-!
# Where runtime settings come from

The settings of a process come from its environment, from its file or from nowhere, each on its
own: a variable says nothing of the other fields of its section. `Variables.given?` is what the
variables say at a path, and if no other variable's path begins with this path or is the beginning
of it (`Variables.Isolates`), then it is what the snapshot of the environment has there. Laid over
the file, it wins.

A file and an environment that fit together in this way are `RuntimeSettings.Fits`. That is not
enough: a section of the pool that is no dictionary has no setting that could be of the wrong type,
and yet it can keep the settings from being loaded (`RuntimeSettings.bare_section_fails`). Where the
section is a dictionary, or where the file has none, they are `RuntimeSettings.Configured`, and the
settings can be loaded (`RuntimeSettings.load_of_configured`).
-/

namespace Overseer

/-! ## Single values -/

namespace Value

variable {u v w : Value} {p q path : List String}

/-- A dictionary with one value has something on the way to it and below it only. -/
theorem at?_nested_eq_some (h : (nested p w).at? q = some u) :
    p <+: q ∨ q <+: p ∧ ∃ es, u = dict es := by
  induction p generalizing q with
  | nil => exact .inl List.nil_prefix
  | cons key p ih =>
    cases q with
    | nil =>
      rw [at?_nil, nested, Option.some.injEq] at h
      exact .inr ⟨List.nil_prefix, _, h.symm⟩
    | cons k q =>
      rw [nested, at?_cons_dict, Entries.find?] at h
      split at h
      · rename_i hk
        rw [beq_iff_eq] at hk
        subst hk
        rw [Option.bind_some] at h
        refine (ih h).imp (fun hp => ?_) fun hq => ⟨?_, hq.2⟩
        · exact List.cons_prefix_cons.mpr ⟨rfl, hp⟩
        · exact List.cons_prefix_cons.mpr ⟨rfl, hq.1⟩
      · simp at h

@[simp] theorem at?_nested_self (p : List String) (w : Value) : (nested p w).at? p = some w := by
  induction p with
  | nil => exact at?_nil w
  | cons key p ih => simpa [nested, Entries.find?] using ih

theorem opens_nested (h : p <+: path ∨ path <+: p → p = path) (w : Value) :
    (nested p w).Opens path := by
  intro q hq hne u hu
  rcases at?_nested_eq_some hu with hp | hdict
  · have := h (.inl (hp.trans hq))
    subst this
    exact absurd (hq.eq_of_length (le_antisymm hq.length_le hp.length_le)) hne
  · exact hdict.2

theorem at?_nested_of_ne (h : p <+: path ∨ path <+: p → p = path) (hne : p ≠ path) (w : Value) :
    (nested p w).at? path = none := by
  by_contra hsome
  obtain ⟨u, hu⟩ := Option.ne_none_iff_exists'.mp hsome
  exact hne (h ((at?_nested_eq_some hu).imp id And.left))

theorem at?_dict_nil (h : path ≠ []) : (dict []).at? path = none := by
  obtain ⟨key, path, rfl⟩ := List.exists_cons_of_ne_nil h
  rfl

theorem opens_dict_nil (path : List String) : (dict []).Opens path := by
  rintro (_ | ⟨key, q⟩) - - u hu
  · exact ⟨[], by simpa using hu.symm⟩
  · simp at hu

theorem Opens.of_prefix (h : v.Opens path) (hq : q <+: path) : v.Opens q := by
  intro r hr hne
  refine h r (hr.trans hq) ?_
  rintro rfl
  exact hne (hr.eq_of_length (le_antisymm hr.length_le hq.length_le))

/-- What two values leave open, they leave open when one is laid over the other. -/
theorem Opens.merge {policy : Arrays} (hs : v.IsSorted) (hu : u.Opens path) (hv : v.Opens path) :
    (merge policy u v).Opens path := by
  intro q hq hne x hx
  rw [at?_merge hs (hv.of_prefix hq)] at hx
  cases hvq : v.at? q with
  | none => exact hu q hq hne x (by simpa only [hvq] using hx)
  | some w =>
    obtain ⟨fs, rfl⟩ := hv q hq hne w hvq
    simp only [hvq, Option.some.injEq] at hx
    cases huq : u.at? q with
    | none => exact ⟨fs, by simpa [onto, huq] using hx.symm⟩
    | some y =>
      obtain ⟨es, rfl⟩ := hu q hq hne y huq
      exact ⟨_, by simpa [onto, huq] using hx.symm⟩

/-- A setting laid over anything is what is there afterwards. -/
theorem at?_merge_of_setting {policy : Arrays} (hs : v.IsSorted) (hv : v.Opens path)
    (hset : ∀ w, v.at? path = some w → w.setting?.isSome) (u : Value) :
    (Value.merge policy u v).at? path = (v.at? path).or (u.at? path) := by
  rw [at?_merge hs hv]
  cases hvp : v.at? path with
  | none => rfl
  | some w => simp [onto_of_setting (hset w hvp)]

end Value

/-! ## The environment -/

namespace Variables

/-- What the variables under a prefix say at a path. The last one counts. -/
def given? (start : String) (environment : List (String × String)) (path : List String) :
    Option Value :=
  (environment.reverse.find? fun v => path? (withUnderscore start) v.1 == some path).map
    fun v => value v.2

/-- No variable names a proper beginning of a path or something below it. -/
def Isolates (start : String) (environment : List (String × String)) (path : List String) : Prop :=
  ∀ v ∈ environment, ∀ p ∈ path? (withUnderscore start) v.1, p <+: path ∨ path <+: p → p = path

instance (start : String) (environment : List (String × String)) (path : List String) :
    Decidable (Isolates start environment path) :=
  inferInstanceAs (Decidable (∀ v ∈ environment, ∀ p ∈ path? (withUnderscore start) v.1,
    p <+: path ∨ path <+: p → p = path))

variable {start : String} {environment : List (String × String)} {path : List String}

theorem given?_append (v : String × String) :
    given? start (environment ++ [v]) path =
      if path? (withUnderscore start) v.1 = some path then some (value v.2)
      else given? start environment path := by
  simp only [given?, List.reverse_append, List.reverse_singleton, List.singleton_append,
    List.find?_cons]
  split <;> simp_all

/-- The snapshot of the environment has at an isolated path what the variables say there. -/
theorem at?_entries (hne : path ≠ []) (hi : Isolates start environment path)
    (hs : ∀ v ∈ environment, path? (withUnderscore start) v.1 = some path →
      (value v.2).setting?.isSome) :
    (Value.dict (entries start environment)).Opens path ∧
      (Value.dict (entries start environment)).at? path = given? start environment path := by
  induction environment using List.reverseRecOn with
  | nil => exact ⟨Value.opens_dict_nil path, Value.at?_dict_nil hne⟩
  | append_singleton environment v ih =>
    obtain ⟨hopens, hat⟩ := ih (fun u hu => hi u (List.mem_append_left _ hu))
      fun u hu => hs u (List.mem_append_left _ hu)
    rw [given?_append]
    cases hp : path? (withUnderscore start) v.1 with
    | none => simp [entries_append_of_none hp, hopens, hat]
    | some p =>
      have hv : v ∈ environment ++ [v] := by simp
      have hnested := Value.opens_nested (hi v hv p hp) (value v.2)
      have hsorted := Value.isSorted_nested (isSorted_value v.2) p
      rw [dict_entries_append hp]
      refine ⟨hopens.merge hsorted hnested, ?_⟩
      by_cases hpp : p = path
      · subst hpp
        rw [Value.at?_merge_of_setting hsorted hnested (by simpa using hs v hv hp)]
        simp
      · have hnone := Value.at?_nested_of_ne (hi v hv p hp) hpp (value v.2)
        rw [Value.at?_merge_of_setting hsorted hnested (by simp [hnone]), hnone, hat]
        simp [hpp]

end Variables

/-! ## Settings of a process -/

namespace RuntimeSettings

/-- A file with these entries, if there is a file, and an environment that fit together. Every
setting that is there is of the right type and range, and no variable names a part of the path of a
setting or something below a setting. -/
structure Fits (file : Option File) (es : Entries) (environment : List (String × String)) :
    Prop where
  parsed : file.elim (.ok []) File.entries = .ok es
  written : ∀ f : Field, ∀ v ∈ (Value.dict es).at? f.path, f.Takes v
  isolated : ∀ f : Field, Variables.Isolates envPrefix environment f.path
  given : ∀ f : Field, ∀ v ∈ environment,
    Variables.path? (Variables.withUnderscore envPrefix) v.1 = some f.path →
      f.Takes (Variables.value v.2)

/-- They give a process settings if the section of the pool, where the file has one, is a
dictionary. -/
structure Configured (file : Option File) (es : Entries) (environment : List (String × String)) :
    Prop extends Fits file es environment where
  pool : ∀ v ∈ Entries.find? "worker_pool" es, ∃ fs, v = .dict fs

/-- The value that decides a setting: what the environment says, or else the file. -/
def deciding? (es : Entries) (environment : List (String × String)) (f : Field) : Option Value :=
  (Variables.given? envPrefix environment f.path).or ((Value.dict es).at? f.path)

/-- The values of a file with those of the environment laid over them. -/
def merged (es : Entries) (environment : List (String × String)) : Value :=
  Value.merge .append (Value.merge .append (.dict []) (.dict es))
    (.dict (Variables.entries envPrefix environment))

variable {file : Option File} {es : Entries} {environment : List (String × String)}

namespace Configured

theorem isSorted (h : Configured file es environment) : (Value.dict es).IsSorted := by
  have hparsed := h.parsed
  cases file with
  | none =>
    cases hparsed
    exact Value.isSorted_dict_nil
  | some f => exact File.isSorted_of_entries hparsed

/-- The values of all layers are those of the file with those of the environment laid over. -/
theorem load_eq (h : Configured file es environment) {s : RuntimeSettings}
    (hs : ofValue (merged es environment) = .ok s) : load file environment = .ok s := by
  let snapshot : Layer := ⟨Variables.entries envPrefix environment, none⟩
  have hlayers : ∃ layers, Source.layers environment (sources file) = .ok layers ∧
      Value.dict (Layer.merged layers) = merged es environment := by
    have hparsed := h.parsed
    cases file with
    | none =>
      cases hparsed
      exact ⟨[snapshot], rfl, by simp [Layer.merged, merged, Value.mergeEntries, snapshot]⟩
    | some f =>
      have hf : f.entries = .ok es := hparsed
      refine ⟨[⟨es, f.origin⟩, snapshot], ?_, by simp [Layer.merged, merged, snapshot]⟩
      simp only [Source.layers, sources, Option.map_some, Option.toList_some, List.cons_append,
        List.nil_append, List.mapM_cons, Source.layer?, hf]
      rfl
  obtain ⟨layers, hlayers, hmerged⟩ := hlayers
  simp only [load, hlayers]
  exact mapError_eq_ok_iff.mpr (hmerged ▸ hs)

theorem takes_given (h : Configured file es environment) {f : Field} {v : Value}
    (hv : Variables.given? envPrefix environment f.path = some v) : f.Takes v := by
  obtain ⟨u, hu, rfl⟩ := Option.map_eq_some_iff.mp hv
  have hmem := List.mem_reverse.mp (List.mem_of_find?_eq_some hu)
  exact h.given f u hmem (by simpa using List.find?_some hu)

theorem opens_file (h : Configured file es environment) (f : Field) :
    (Value.dict es).Opens f.path := by
  intro q hq hne v hv
  cases q with
  | nil => exact ⟨es, by simpa using hv.symm⟩
  | cons key q =>
    cases f with
    | period => simp_all [Field.path]
    | pool f =>
      obtain ⟨rfl, hq⟩ := List.cons_prefix_cons.mp hq
      cases q with
      | nil => exact h.pool v (by simpa using hv)
      | cons key q => simp_all [Field.path]

theorem opens_environment (h : Configured file es environment) (f : Field) :
    (Value.dict (Variables.entries envPrefix environment)).Opens f.path ∧
      (Value.dict (Variables.entries envPrefix environment)).at? f.path =
        Variables.given? envPrefix environment f.path :=
  Variables.at?_entries f.path_ne_nil (h.isolated f) fun v hv hp => (h.given f v hv hp).isSome

theorem isSorted_merged (h : Configured file es environment) :
    (merged es environment).IsSorted :=
  (Value.isSorted_dict_nil.merge h.isSorted).merge (Variables.isSorted_entries _ _)

theorem opens_merged (h : Configured file es environment) (f : Field) :
    (merged es environment).Opens f.path :=
  ((Value.opens_dict_nil f.path).merge h.isSorted (h.opens_file f)).merge
    (Variables.isSorted_entries _ _) (h.opens_environment f).1

/-- The merged values have at the path of a setting the value that decides it. -/
theorem at?_merged (h : Configured file es environment) (f : Field) :
    (merged es environment).at? f.path = deciding? es environment f := by
  obtain ⟨hopens, hat⟩ := h.opens_environment f
  have hgiven : ∀ v, (Value.dict (Variables.entries envPrefix environment)).at? f.path = some v →
      v.setting?.isSome := fun v hv => (h.takes_given (hat ▸ hv)).isSome
  have hwritten : ∀ v, (Value.dict es).at? f.path = some v → v.setting?.isSome := fun v hv =>
    (h.written f v hv).isSome
  rw [merged, Value.at?_merge_of_setting (Variables.isSorted_entries _ _) hopens hgiven,
    Value.at?_merge_of_setting h.isSorted (h.opens_file f) hwritten, hat, deciding?,
    Value.at?_dict_nil f.path_ne_nil, Option.or_none]

theorem takes_deciding (h : Configured file es environment) {f : Field} {v : Value}
    (hv : deciding? es environment f = some v) : f.Takes v := by
  rcases Option.or_eq_some_iff.mp hv with hv | ⟨-, hv⟩
  · exact h.takes_given hv
  · exact h.written f v hv

/-- The settings can be loaded, and each is what the value that decides it says. -/
theorem exists_load (h : Configured file es environment) :
    ∃ s, load file environment = .ok s ∧
      ∀ f : Field, f.of s = ((deciding? es environment f).bind Value.setting?).getD (f.of {}) := by
  obtain ⟨ms, hms⟩ : ∃ ms, merged es environment = .dict ms := by simp [merged]
  have hsorted := h.isSorted_merged
  have hat := h.at?_merged
  have hopens := h.opens_merged (.pool .capacity)
  rw [hms] at hsorted hopens
  simp only [hms] at hat
  have hpool : ∀ v, Entries.find? "worker_pool" ms = some v → ∃ fs, v = .dict fs := fun v hv =>
    hopens ["worker_pool"] (List.prefix_append _ _) (by simp [Field.path]) v (by simp [hv])
  obtain ⟨s, hs, hall⟩ := exists_ofValue hsorted hpool fun f v hv => h.takes_deciding (hat f ▸ hv)
  exact ⟨s, h.load_eq (hms ▸ hs), fun f => hat f ▸ hall f⟩

end Configured

/-- A file and an environment whose values are of the right type and range, and no variable of
which names a part of the path of a setting or something below it, give settings if the section of
the pool, where the file has one, is a dictionary. Each setting is what the environment says, or
else the file, or else its default. Whatever decides no setting makes no difference. -/
theorem load_of_configured (h : Configured file es environment) :
    (∃ s, load file environment = .ok s ∧
      ∀ f : Field, f.of s = ((deciding? es environment f).bind Value.setting?).getD (f.of {})) ∧
    ∀ file' es' environment', Configured file' es' environment' →
      (∀ f, deciding? es' environment' f = deciding? es environment f) →
        load file' environment' = load file environment := by
  refine ⟨h.exists_load, fun file' es' environment' h' hsame => ?_⟩
  obtain ⟨s, hs, hall⟩ := h.exists_load
  obtain ⟨t, ht, hall'⟩ := h'.exists_load
  have hts : t = s := Field.ext_of fun f => by rw [hall', hall, hsame]
  rw [hs, ht, hts]

/-- What is read from a file that can be read. -/
def entriesOf (file : File) : Entries := file.entries.toOption.getD []

theorem entries_eq_entriesOf {file : File} (h : file.entries.toOption.isSome = true) :
    file.entries = .ok (entriesOf file) := by
  rw [entriesOf]
  cases hfile : file.entries with
  | error e => simp [hfile, Except.toOption] at h
  | ok es => rfl

/-- A file with two settings of the pool. -/
def layeredFile : File where
  format := .json
  contents := some
    "\x7b\"worker_pool\":\x7b\"capacity\":3,\"prealloc\":true\x7d,\"x\":0\x7d".toUTF8

/-- Variables of which one overrides a setting of the file and one is beside it. -/
def layeredVariables : List (String × String) :=
  [("TETHER_WORKER_POOL__CAPACITY", "16"), ("tether_worker_pool__nonblocking", "true"),
    ("TETHER_Y", "1")]

def layeredEntries : Entries := entriesOf layeredFile

theorem load_of_configured_layered :
    Configured (some layeredFile) layeredEntries layeredVariables ∧
      load (some layeredFile) layeredVariables =
        .ok { workerPool := { capacity := 16, prealloc := true, nonblocking := true } } := by
  have hparsed : layeredFile.entries = .ok layeredEntries :=
    entries_eq_entriesOf (by decide +kernel)
  have h : Configured (some layeredFile) layeredEntries layeredVariables :=
    { parsed := by rw [Option.elim_some, hparsed]
      written := by decide +kernel
      isolated := by decide +kernel
      given := by decide +kernel
      pool := by decide +kernel }
  have hdeciding : ∀ f : Field,
      ((deciding? layeredEntries layeredVariables f).bind Value.setting?).getD (f.of {}) =
        f.of { workerPool := { capacity := 16, prealloc := true, nonblocking := true } } := by
    decide +kernel
  obtain ⟨s, hs, hall⟩ := (load_of_configured h).1
  exact ⟨h, Field.ext_of (fun f => (hall f).trans (hdeciding f)) ▸ hs⟩

/-- A file whose section of the pool is null. -/
def bareFile : File where
  format := .json
  contents := some "\x7b\"worker_pool\":null\x7d".toUTF8

/-- That the section of the pool is a dictionary has to be asked for. Null is none, and fits
nevertheless: the file has no setting of the pool then, so none is of the wrong type. -/
theorem bare_section_fails :
    Fits (some bareFile) (entriesOf bareFile) [] ∧ ∀ s, load (some bareFile) [] ≠ .ok s := by
  have hparsed : bareFile.entries = .ok (entriesOf bareFile) :=
    entries_eq_entriesOf (by decide +kernel)
  have hfits : Fits (some bareFile) (entriesOf bareFile) [] :=
    { parsed := by rw [Option.elim_some, hparsed]
      written := by decide +kernel
      isolated := fun _ => nofun
      given := fun _ => nofun }
  have hload : (load (some bareFile) []).toOption.isNone = true := by decide +kernel
  refine ⟨hfits, fun s hs => ?_⟩
  simp [hs, Except.toOption] at hload

end RuntimeSettings

end Overseer
