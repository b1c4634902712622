import Mathlib.Data.List.Induction
import Overseer.Config.Source
import Overseer.Proofs.Config.Merge

/-!
# Sources give sorted values

Whatever a file or the environment says, the dictionaries in it are sorted, as every reader puts
entries into a dictionary one by one. A reader is a computation that may fail; `Yields` says what
holds of its value whenever there is one, and it goes through the readers along their binds.
-/

namespace Overseer

/-- Every value that a computation can give satisfies `P`. -/
def Yields {σ ε α : Type} (P : α → Prop) (x : StateT σ (Except ε) α) : Prop :=
  ∀ s a t, x s = .ok (a, t) → P a

namespace Yields

variable {σ ε α β : Type} {P : α → Prop} {Q : β → Prop}

theorem pure {a : α} (h : P a) : Yields P (Pure.pure a : StateT σ (Except ε) α) := by
  rintro s b t hb
  cases hb
  exact h

theorem throw (e : ε) : Yields P (MonadExcept.throw e : StateT σ (Except ε) α) := by
  rintro s b t hb
  cases hb

theorem bind {x : StateT σ (Except ε) α} {f : α → StateT σ (Except ε) β} (hx : Yields P x)
    (hf : ∀ a, P a → Yields Q (f a)) : Yields Q (x >>= f) := by
  intro s b t hb
  change (x s).bind (fun r => f r.1 r.2) = _ at hb
  cases hxs : x s with
  | error e => simp [hxs, Except.bind] at hb
  | ok r => exact hf r.1 (hx s r.1 r.2 hxs) r.2 b t (by simpa [hxs, Except.bind] using hb)

/-- Nothing need be known of the first value. -/
theorem after {x : StateT σ (Except ε) α} {f : α → StateT σ (Except ε) β}
    (hf : ∀ a, Yields Q (f a)) : Yields Q (x >>= f) :=
  bind (P := fun _ => True) (fun _ _ _ _ => trivial) fun a _ => hf a

theorem map {x : StateT σ (Except ε) α} {f : α → β} (hx : Yields P x)
    (hf : ∀ a, P a → Q (f a)) : Yields Q (f <$> x) := by
  rw [map_eq_pure_bind]
  exact hx.bind fun a ha => pure (hf a ha)

/-- Nothing need be known of the value that is turned into another one. -/
theorem afterMap {x : StateT σ (Except ε) α} {f : α → β} (hf : ∀ a, Q (f a)) :
    Yields Q (f <$> x) := by
  rw [map_eq_pure_bind]
  exact after fun a => pure (hf a)

end Yields

open Value (isSorted_of_not_dict isSorted_dict_nil isSorted_put isSorted_nested)

theorem exists_of_bind_eq_ok {ε α β : Type} {x : Except ε α} {f : α → Except ε β} {b : β}
    (h : x >>= f = .ok b) : ∃ a, x = .ok a ∧ f a = .ok b := by
  cases x with
  | error e => cases h
  | ok a => exact ⟨a, rfl, h⟩

theorem mapError_eq_ok_iff {ε ε' α : Type} {f : ε → ε'} {x : Except ε α} {a : α} :
    x.mapError f = .ok a ↔ x = .ok a := by
  cases x <;> simp [Except.mapError]

/-! ## Dictionaries while they are read -/

/-- What has been read so far is sorted. -/
structure Draft.IsSorted (d : Draft) : Prop where
  entries : (Value.dict d.entries).IsSorted
  whole : ∀ v, d.whole = some v → v.IsSorted

theorem Draft.isSorted_empty : Draft.IsSorted {} := ⟨isSorted_dict_nil, by simp⟩

theorem Draft.IsSorted.finish {d : Draft} (h : d.IsSorted) : d.finish.IsSorted := by
  rw [Draft.finish]
  cases hw : d.whole with
  | none => exact h.entries
  | some v => exact h.whole v hw

theorem Draft.IsSorted.read {σ ε : Type} {identity : StateT σ (Except ε) Unit}
    {value : StateT σ (Except ε) Value} {d : Draft} (h : d.IsSorted)
    (hv : Yields Value.IsSorted value) (key : String) :
    Yields Draft.IsSorted (d.read identity value key) := by
  rw [Draft.read]
  split
  · exact .after fun _ => .pure h
  · split
    · refine hv.bind fun v hv => .pure ⟨h.entries, ?_⟩
      rintro w hw
      cases hw
      exact hv
    · exact hv.bind fun v hv => .pure ⟨isSorted_put h.entries hv key, h.whole⟩

/-! ## JSON -/

namespace Json.Read

theorem yields_fail {α : Type} {P : α → Prop} (cause : Cause) : Yields P (fail cause : Read α) :=
  .after fun _ => .throw _

theorem yields_failAtNext {α : Type} {P : α → Prop} (cause : Cause) :
    Yields P (failAtNext cause : Read α) :=
  .after fun _ => .throw _

theorem yields_number : Yields Value.IsSorted number := by
  refine .after fun n => ?_
  split
  · rename_i m _
    exact .pure (isSorted_of_not_dict (by cases m <;> simp [Number.toValue]))
  · exact yields_fail _

theorem yields_scalarOr {other : Char → Read Value} (h : ∀ c, Yields Value.IsSorted (other c)) :
    Yields Value.IsSorted (scalarOr other) := by
  refine .after fun c? => ?_
  split
  · exact yields_failAtNext _
  · exact .after fun _ => .after fun _ => .pure (isSorted_of_not_dict (by simp))
  · exact .after fun _ => .after fun _ => .pure (isSorted_of_not_dict (by simp))
  · exact .after fun _ => .after fun _ => .pure (isSorted_of_not_dict (by simp))
  · exact .after fun _ => .afterMap fun _ => isSorted_of_not_dict (by simp)
  · split
    · exact yields_number
    · exact h _

theorem yields_members {σ : Type} {P : σ → Prop} {care : Care} {step : String → σ → Read σ}
    (hstep : ∀ name s, P s → Yields P (step name s)) (rounds : Nat) (first : Bool) {s : σ}
    (h : P s) : Yields P (members care step rounds first s) := by
  induction rounds generalizing first s with
  | zero => exact .pure h
  | succ rounds ih =>
    refine .after fun name? => ?_
    split
    · exact (hstep _ s h).bind fun s' h' => ih false h'
    · exact .after fun _ => .pure h

theorem yields_value (depth : Nat) : Yields Value.IsSorted (value depth) := by
  induction depth with
  | zero =>
    refine yields_scalarOr fun c => ?_
    split
    · exact yields_failAtNext _
    · exact yields_failAtNext _
  | succ depth ih =>
    refine yields_scalarOr fun c => ?_
    split
    · exact .after fun _ => .afterMap fun _ => isSorted_of_not_dict (by simp)
    · split
      · refine .after fun _ => Yields.map (P := Draft.IsSorted) (.after fun rounds => ?_)
          fun d hd => hd.finish
        exact yields_members (fun name d hd => .after fun _ => hd.read ih name) rounds true
          Draft.isSorted_empty
      · exact yields_failAtNext _

theorem yields_document : Yields (fun es => (Value.dict es).IsSorted) document := by
  refine .after fun c? => ?_
  split
  · refine .after fun _ => Yields.bind (P := fun es => (Value.dict es).IsSorted) ?_
      fun es hes => .after fun _ => .pure hes
    refine .after fun rounds => yields_members (fun name es hes => .after fun _ => ?_) rounds true
      isSorted_dict_nil
    exact (yields_value _).bind fun v hv => .pure (isSorted_put hes hv name)
  · exact .after fun _ => yields_fail _

end Json.Read

theorem Json.isSorted_of_parseEntries {text : String} {es : Entries}
    (h : Json.parseEntries text = .ok es) : (Value.dict es).IsSorted := by
  rw [Json.parseEntries] at h
  cases hr : Read.document.run ⟨text.toList, {}⟩ with
  | error e => simp [hr, Except.map] at h
  | ok r =>
    simp only [hr, Except.map, Except.ok.injEq] at h
    exact h ▸ Read.yields_document _ r.1 r.2 hr

/-! ## YAML -/

theorem PlainScalar.isSorted_of_integer? {cs : List Char} {v : Value}
    (h : PlainScalar.integer? cs = some v) : v.IsSorted := by
  have hv : ∃ n k, v = .unsigned n ∨ v = .signed k := by
    simp only [PlainScalar.integer?] at h
    split at h <;> (obtain ⟨n, -, hn⟩ := Option.bind_eq_some_iff.mp h; split at hn <;> cases hn)
    · exact ⟨0, _, .inr rfl⟩
    · exact ⟨_, 0, .inl rfl⟩
    · exact ⟨_, 0, .inl rfl⟩
  obtain ⟨n, k, rfl | rfl⟩ := hv <;> exact isSorted_of_not_dict (by simp)

theorem PlainScalar.isSorted_value (s : String) : (PlainScalar.value s).IsSorted := by
  simp only [PlainScalar.value]
  split
  · exact isSorted_of_not_dict (by simp)
  · split
    · exact isSorted_of_not_dict (by simp)
    · rename_i hv
      exact PlainScalar.isSorted_of_integer? hv
    · split <;> exact isSorted_of_not_dict (by simp)

namespace Yaml.Visit

variable {t : Tree}

theorem yields_tagged {path : Path} {mark : Mark} {text expected : String} {v? : Option Value}
    (h : ∀ v, v? = some v → v.IsSorted) :
    Yields Value.IsSorted (tagged path mark text expected v?) := by
  cases v? with
  | none => exact .throw _
  | some v => exact .pure (h v rfl)

theorem yields_scalar (path : Path) (mark : Mark) (tag : Option Tag) (text : String)
    (style : Style) : Yields Value.IsSorted (scalar path mark tag text style) := by
  rw [scalar]
  split
  · refine yields_tagged fun v hv => ?_
    obtain ⟨b, -, rfl⟩ := Option.map_eq_some_iff.mp hv
    exact isSorted_of_not_dict (by simp)
  · split
    · exact yields_tagged fun v hv => PlainScalar.isSorted_of_integer? hv
    · split
      · refine yields_tagged fun v hv => ?_
        obtain ⟨x, -, rfl⟩ := Option.map_eq_some_iff.mp hv
        exact isSorted_of_not_dict (by simp)
      · split
        · refine yields_tagged fun v hv => ?_
          split at hv <;> cases hv
          exact isSorted_of_not_dict (by simp)
        · split
          · exact .pure (PlainScalar.isSorted_value text)
          · exact .pure (isSorted_of_not_dict (by simp))

theorem yields_parts {σ : Type} {P : σ → Prop} {step : String → Path → Node → σ → Visit σ}
    (hstep : ∀ key path n s, P s → Yields P (step key path n s)) (path : Path) :
    ∀ (ns : List Node) {s : σ}, P s → Yields P (parts t step path ns s)
  | [], _, h => .pure h
  | [_], _, _ => .after fun _ => .throw _
  | _ :: v :: rest, s, h =>
    .after fun text => (hstep text _ v s h).bind fun _ h' => yields_parts hstep path rest h'

/-- A name that the document gives a node puts its value below a path. -/
theorem yields_named {x : Visit Value} (hx : Yields Value.IsSorted x) (n : Node) :
    Yields Value.IsSorted (x >>= fun v => pure (n.ownName?.elim v (Value.named · v))) := by
  refine hx.bind fun v hv => .pure ?_
  cases n.ownName? with
  | none => exact hv
  | some name => exact isSorted_nested hv _

theorem yields_value (depth : Nat) (path : Path) (n : Node) :
    Yields Value.IsSorted (value t depth path n) := by
  induction depth generalizing path n with
  | zero =>
    refine .after fun n => ?_
    split <;> refine yields_named ?_ _
    · exact yields_scalar _ _ _ _ _
    · exact .throw _
    · exact .throw _
    · exact .throw _
  | succ depth ih =>
    refine .after fun n => ?_
    split <;> refine yields_named ?_ _
    · exact yields_scalar _ _ _ _ _
    · exact .afterMap fun _ => isSorted_of_not_dict (by simp)
    · refine Yields.map (P := Draft.IsSorted) ?_ fun d hd => hd.finish
      exact yields_parts (fun key path n d hd => hd.read (ih path n) key) path _
        Draft.isSorted_empty
    · exact .throw _

theorem yields_document (n : Node) :
    Yields (fun es => (Value.dict es).IsSorted) (document t n) := by
  refine .after fun n => ?_
  split
  · refine yields_parts (fun key path n es hes => ?_) _ _ isSorted_dict_nil
    exact (yields_value _ path n).bind fun v hv => .pure (isSorted_put hes hv key)
  · exact .throw _
  · split
    · exact .pure isSorted_dict_nil
    · exact .after fun _ => .throw _
  · exact .throw _

end Yaml.Visit

theorem Yaml.isSorted_of_parseEntries {text : String} {es : Entries}
    (h : Yaml.parseEntries text = .ok es) : (Value.dict es).IsSorted := by
  simp only [Yaml.parseEntries] at h
  -- The entries are read first, and what is checked afterwards gives them back.
  split at h
  · split at h
    · cases h
    · split at h <;> cases h
      exact isSorted_dict_nil
  · cases h
  · obtain ⟨fs, hfs, hdone⟩ := exists_of_bind_eq_ok h
    have hes : es = fs := by
      split at hdone
      · cases hdone
      · split at hdone <;> cases hdone
        rfl
    rw [StateT.run'_eq, map_eq_pure_bind] at hfs
    obtain ⟨r, hr, hfst⟩ := exists_of_bind_eq_ok hfs
    cases hfst
    exact hes ▸ Visit.yields_document _ _ r.1 r.2 hr

/-! ## The environment -/

namespace Variables

theorem isSorted_bare (cs : List Char) : (bare cs).IsSorted := by
  refine isSorted_of_not_dict fun es => ?_
  simp only [bare]
  split
  · simp
  · split
    · split <;> simp
    · generalize (if cs.head? == some '+' then cs.tail else cs) = ds
      split <;> simp

/-- The values and the dictionaries in front of a text. The entries that have been read come along
in a dictionary that has not ended. -/
theorem isSorted_of_value? (rounds : Nat) :
    (∀ cs v rest, value? rounds cs = some (v, rest) → v.IsSorted) ∧
    ∀ cs done es rest, entries? rounds cs done = some (es, rest) →
      (Value.dict done).IsSorted → (Value.dict es).IsSorted := by
  induction rounds with
  | zero => simp [value?, entries?]
  | succ rounds ih =>
    refine ⟨fun cs v rest h => ?_, fun cs done es rest h hdone => ?_⟩
    · simp only [value?] at h
      split at h
      · cases h
        exact isSorted_of_not_dict (by simp)
      · cases h
        exact isSorted_of_not_dict (by simp)
      · obtain ⟨r, hr, heq⟩ := Option.bind_eq_some_iff.mp h
        obtain ⟨e, he, rfl⟩ := Option.map_eq_some_iff.mp hr
        cases heq
        exact ih.2 _ [] e.1 e.2 he isSorted_dict_nil
      · obtain ⟨r, hr, heq⟩ := Option.bind_eq_some_iff.mp h
        obtain ⟨e, -, rfl⟩ := Option.map_eq_some_iff.mp hr
        cases heq
        exact isSorted_of_not_dict (by simp)
      · obtain ⟨r, hr, heq⟩ := Option.bind_eq_some_iff.mp h
        obtain ⟨e, -, rfl⟩ := Option.map_eq_some_iff.mp hr
        cases heq
        exact isSorted_of_not_dict (by simp)
      · split at h <;> cases h
        exact isSorted_of_not_dict (by simp)
      · cases h
        exact isSorted_bare _
    · simp only [entries?] at h
      split at h
      · cases h
        exact hdone
      · obtain ⟨k, -, h⟩ := Option.bind_eq_some_iff.mp h
        split at h
        · obtain ⟨r, hr, h⟩ := Option.bind_eq_some_iff.mp h
          have hput := isSorted_put hdone (ih.1 _ r.1 r.2 hr) k.1
          split at h
          · exact ih.2 _ _ es rest h hput
          · cases h
            exact hput
          · cases h
        · cases h

theorem isSorted_value (s : String) : (value s).IsSorted := by
  rw [value]
  split
  · rename_i v hv
    exact (isSorted_of_value? _).1 _ v [] hv
  · exact isSorted_of_not_dict (by simp)

theorem keys_ne_nil (cs : List Char) : keys cs ≠ [] := by
  rw [keys.eq_def]
  split
  · simp
  · simp
  · simp
  · split <;> simp

theorem path?_ne_nil {start name : String} {path : List String} (h : path? start name = some path) :
    path ≠ [] := by
  obtain ⟨rest, -, h⟩ := Option.bind_eq_some_iff.mp h
  dsimp only at h
  split at h <;> cases h
  simpa using keys_ne_nil _

variable {start : String} {environment : List (String × String)} {v : String × String}

theorem entries_append_of_none (h : path? (withUnderscore start) v.1 = none) :
    entries start (environment ++ [v]) = entries start environment := by
  simp [entries, List.foldl_append, h]

/-- One more variable is laid over those before it. -/
theorem dict_entries_append {path : List String}
    (h : path? (withUnderscore start) v.1 = some path) :
    Value.dict (entries start (environment ++ [v])) =
      Value.merge .replace (.dict (entries start environment)) (Value.nested path (value v.2)) := by
  obtain ⟨key, path, rfl⟩ := List.exists_cons_of_ne_nil (path?_ne_nil h)
  rw [Value.nested, Value.merge_dict_dict]
  simp [entries, List.foldl_append, h, Value.nested]

theorem isSorted_entries (start : String) (environment : List (String × String)) :
    (Value.dict (entries start environment)).IsSorted := by
  induction environment using List.reverseRecOn with
  | nil => exact isSorted_dict_nil
  | append_singleton environment v ih =>
    cases hp : path? (withUnderscore start) v.1 with
    | none => rwa [entries_append_of_none hp]
    | some path =>
      rw [dict_entries_append hp]
      exact ih.merge (isSorted_nested (isSorted_value v.2) path)

end Variables

/-! ## Layers -/

theorem FileFormat.isSorted_of_parse {format : FileFormat} {text : String} {es : Entries}
    (h : format.parse text = .ok es) : (Value.dict es).IsSorted := by
  cases format with
  | yaml => exact Yaml.isSorted_of_parseEntries (mapError_eq_ok_iff.mp h)
  | json => exact Json.isSorted_of_parseEntries (mapError_eq_ok_iff.mp h)

theorem File.isSorted_of_entries {f : File} {es : Entries} (h : f.entries = .ok es) :
    (Value.dict es).IsSorted := by
  obtain ⟨text, -, h⟩ := exists_of_bind_eq_ok h
  exact FileFormat.isSorted_of_parse h

/-- The snapshot of any source is sorted. -/
theorem Source.isSorted_of_layer? {environment : List (String × String)} {source : Source}
    {l : Layer} (h : source.layer? environment = .ok (some l)) :
    (Value.dict l.entries).IsSorted := by
  cases source with
  | file f =>
    cases hf : f.entries with
    | error e => simp [Source.layer?, hf, Except.map] at h
    | ok es =>
      simp only [Source.layer?, hf, Except.map, Except.ok.injEq, Option.some.injEq] at h
      exact h ▸ File.isSorted_of_entries hf
  | optional f =>
    cases hf : f.entries with
    | error e => simp [Source.layer?, hf, Except.toOption] at h
    | ok es =>
      simp only [Source.layer?, hf, Except.toOption, Option.map_some, Except.ok.injEq,
        Option.some.injEq] at h
      exact h ▸ File.isSorted_of_entries hf
  | environment start =>
    simp only [Source.layer?] at h
    split at h <;> cases h
    exact Variables.isSorted_entries start environment

end Overseer
