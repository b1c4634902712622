import Mathlib.Logic.Function.Basic
import Overseer.Config.PoolSection
import Overseer.Config.Runtime
import Overseer.Proofs.Config.Merge

/-!
# Settings out of values

A record is read by setting one field after another. If every field that is there can be set, then
the record can be read, and each field is what its own value says, or as it was if it has none
(`Value.exists_readRecord`).

The settings of a process are integers and flags. `RuntimeSettings.Field` lists them, with the
path of each, what it can be set to and what it is in given settings.
-/

namespace Overseer

open Entries (find?)

/-! ## Records -/

namespace Value

section

variable {σ : Type} {expected : String} {fields : List String}
  {set : String → Value → σ → Except Mismatch σ} {key : String} {v : Value} {es : Entries}
  {s t : σ}

theorem readRecord_nil : (dict []).readRecord expected fields set s = .ok s := rfl

theorem readRecord_cons_of_mem (h : key ∈ fields) (ht : set key v s = .ok t) :
    (dict ((key, v) :: es)).readRecord expected fields set s =
      (dict es).readRecord expected fields set t := by
  simp only [readRecord, List.foldlM_cons, List.contains_iff_mem, h, if_true, ht]
  rfl

theorem readRecord_cons_of_notMem (h : key ∉ fields) :
    (dict ((key, v) :: es)).readRecord expected fields set s =
      (dict es).readRecord expected fields set s := by
  simp only [readRecord, List.foldlM_cons, List.contains_iff_mem, h, if_false]
  rfl

/-- A record whose fields can all be set. `P` says what a field is to be when it has a value and
when it has none. -/
theorem exists_readRecord {P : String → Option Value → σ → Prop} (hes : es.IsSorted)
    (hset : ∀ n ∈ fields, ∀ v s, find? n es = some v →
      ∃ t, set n v s = .ok t ∧ P n (some v) t ∧ ∀ m, m ≠ n → ∀ v?, P m v? s → P m v? t)
    (hstart : ∀ n ∈ fields, P n none s) :
    ∃ t, (dict es).readRecord expected fields set s = .ok t ∧
      ∀ n ∈ fields, P n (find? n es) t := by
  -- While the entries are read, the fields are what `w` says of the entries so far.
  suffices h : ∀ (w : String → Option Value) (s : σ), (∀ n ∈ fields, P n (w n) s) →
      ∃ t, (dict es).readRecord expected fields set s = .ok t ∧
        ∀ n ∈ fields, P n ((find? n es).or (w n)) t by
    simpa using h (fun _ => none) s hstart
  clear hstart
  induction es with
  | nil => exact fun w s h => ⟨s, readRecord_nil, by simpa using h⟩
  | cons e es ih =>
    obtain ⟨k, v⟩ := e
    intro w s h
    have hk : find? k es = none := Entries.find?_eq_none_iff.mpr (List.nodup_cons.mp hes.nodup).1
    have hne : ∀ {m}, m ≠ k → find? m ((k, v) :: es) = find? m es := fun hm => by
      simp [find?, Ne.symm hm]
    replace ih := ih (Entries.isSorted_cons_iff.mp hes).2 fun n hn v' s hv' =>
      hset n hn v' s (by rw [hne (by rintro rfl; simp [hk] at hv'), hv'])
    by_cases hf : k ∈ fields
    · obtain ⟨t, ht, hkt, hother⟩ := hset k hf v s (by simp [find?])
      obtain ⟨t', ht', hall⟩ := ih (Function.update w k (some v)) t fun n hn => by
        by_cases hnk : n = k
        · subst hnk
          simpa using hkt
        · simpa [hnk] using hother n hnk _ (h n hn)
      refine ⟨t', (readRecord_cons_of_mem hf ht).trans ht', fun n hn => ?_⟩
      by_cases hnk : n = k
      · subst hnk
        simpa [hk, find?] using hall n hn
      · simpa [hnk, hne hnk] using hall n hn
    · obtain ⟨t, ht, hall⟩ := ih w s h
      refine ⟨t, (readRecord_cons_of_notMem hf).trans ht, fun n hn => ?_⟩
      rw [hne (by rintro rfl; exact hf hn)]
      exact hall n hn

end

end Value

/-! ## Values of settings -/

/-- What a setting is set to. -/
inductive Setting where
  | integer (n : Int)
  | flag (b : Bool)
  deriving DecidableEq, Repr

/-- What a setting can be set to: a flag, or an integer from a lowest one up to a bound that is not
reached. -/
inductive Kind where
  | integer (low high : Int)
  | flag
  deriving DecidableEq, Repr

/-- Is this of the right type and range? -/
def Kind.Admits : Kind → Setting → Prop
  | integer low high, .integer n => low ≤ n ∧ n < high
  | flag, .flag _ => True
  | _, _ => False

instance : (k : Kind) → (x : Setting) → Decidable (k.Admits x)
  | .integer low high, .integer n => inferInstanceAs (Decidable (low ≤ n ∧ n < high))
  | .flag, .flag _ => inferInstanceAs (Decidable True)
  | .integer .., .flag _ => inferInstanceAs (Decidable False)
  | .flag, .integer _ => inferInstanceAs (Decidable False)

namespace Value

/-- The setting that a value spells. -/
def setting? : Value → Option Setting
  | unsigned n => some (.integer n)
  | signed n => some (.integer n)
  | bool b => some (.flag b)
  | _ => none

variable {v : Value}

theorem readBool_eq_ok {b : Bool} (h : v.setting? = some (.flag b)) : v.readBool = .ok b := by
  cases v <;> simp_all [setting?, readBool]

theorem readInteger_eq_ok {k : IntegerKind} {n : Int} (h : v.setting? = some (.integer n))
    (hlow : -(Word.count 63 : Int) ≤ n) (hhigh : n < Word.count 64) (hk : k.isOne n = true) :
    v.readInteger k = .ok n := by
  have hint : v.integer? = some n := by
    cases v with
    | unsigned m =>
      cases h
      have : m < Word.count 64 := Int.ofNat_lt.mp hhigh
      simp [integer?, this]
    | signed m =>
      cases h
      simp [integer?, hlow]
    | _ => simp [setting?] at h
  simp [readInteger, hint, hk]

theorem readSigned_eq_ok {k : IntegerKind} {n : Int} (h : v.setting? = some (.integer n))
    (hn : -(Word.count 63 : Int) ≤ n ∧ n < Word.count 63) (hk : k.isOne = Word.isSigned 63) :
    v.readInteger k = .ok n := by
  have hcount : Word.count 64 = 2 * Word.count 63 := Word.count_succ 63
  refine readInteger_eq_ok h hn.1 (by omega) ?_
  rw [hk]
  exact Word.isSigned_iff.mpr hn

theorem readNatural_eq_ok {k : IntegerKind} {n : Int} (h : v.setting? = some (.integer n))
    (hn : 0 ≤ n ∧ n < Word.count 64) (hk : k.isOne = Word.isUnsigned 64) :
    v.readNatural k = .ok n.toNat := by
  have hr : v.readInteger k = .ok n := by
    refine readInteger_eq_ok h (by omega) hn.2 ?_
    rw [hk]
    exact Word.isUnsigned_iff.mpr hn
  simp [readNatural, hr]

instance : (v : Value) → Decidable (∃ es, v = dict es)
  | dict es => isTrue ⟨es, rfl⟩
  | null | bool _ | unsigned _ | signed _ | float _ | char _ | string _ | array _ =>
    isFalse (by simp)

/-- A setting hides what is below it. -/
theorem onto_of_setting {policy : Arrays} {u : Option Value} (h : v.setting?.isSome) :
    onto policy u v = v := by
  cases u with
  | none => rfl
  | some u => cases v <;> simp_all [setting?, onto, merge]

end Value

/-! ## The settings of a pool -/

namespace PoolSettings

/-- The settings of a pool, one by one. -/
inductive Field where
  | capacity | expiryMs | prealloc | maxBlocking | nonblocking | disablePurge
  deriving DecidableEq, Repr

namespace Field

/-- What is said of all settings can be tried on one after the other. -/
instance (P : Field → Prop) [DecidablePred P] : Decidable (∀ f, P f) :=
  decidable_of_iff (P capacity ∧ P expiryMs ∧ P prealloc ∧ P maxBlocking ∧ P nonblocking ∧
      P disablePurge)
    ⟨fun ⟨h1, h2, h3, h4, h5, h6⟩ f => by cases f <;> assumption,
      fun h => ⟨h _, h _, h _, h _, h _, h _⟩⟩

def name : Field → String
  | capacity => "capacity"
  | expiryMs => "expiry_ms"
  | prealloc => "prealloc"
  | maxBlocking => "max_blocking_tasks"
  | nonblocking => "nonblocking"
  | disablePurge => "disable_purge"

/-- The setting in given settings. -/
def of (s : PoolSettings) : Field → Setting
  | capacity => .integer s.capacity
  | expiryMs => .integer s.expiryMs
  | prealloc => .flag s.prealloc
  | maxBlocking => .integer s.maxBlocking
  | nonblocking => .flag s.nonblocking
  | disablePurge => .flag s.disablePurge

/-- The type and the range of a setting. -/
def kind : Field → Kind
  | capacity => .integer (-(Word.count 63)) (Word.count 63)
  | expiryMs => .integer (-(Word.count 63)) (Word.count 63)
  | prealloc => .flag
  | maxBlocking => .integer 0 (Word.count 64)
  | nonblocking => .flag
  | disablePurge => .flag

theorem mem_fields_iff {n : String} : n ∈ fields ↔ ∃ f : Field, f.name = n := by
  constructor
  · intro h
    simp only [fields, List.mem_cons, List.not_mem_nil, or_false] at h
    rcases h with rfl | rfl | rfl | rfl | rfl | rfl
    · exact ⟨capacity, rfl⟩
    · exact ⟨expiryMs, rfl⟩
    · exact ⟨prealloc, rfl⟩
    · exact ⟨maxBlocking, rfl⟩
    · exact ⟨nonblocking, rfl⟩
    · exact ⟨disablePurge, rfl⟩
  · rintro ⟨f, rfl⟩
    cases f <;> simp [fields, name]

theorem name_injective : Function.Injective name := by
  intro f g h
  cases f <;> cases g <;> first | rfl | simp [name] at h

/-- Setting a field sets this field alone. -/
theorem exists_set {f : Field} {v : Value} {x : Setting} (hv : v.setting? = some x)
    (hx : f.kind.Admits x) (s : PoolSettings) :
    ∃ t, set f.name v s = .ok t ∧ of t f = x ∧ ∀ g, g ≠ f → of t g = of s g := by
  cases f <;> cases x <;> simp only [kind, Kind.Admits] at hx
  case capacity.integer n =>
    have hr : v.readInteger .isize = .ok n := Value.readSigned_eq_ok hv hx rfl
    refine ⟨{ s with capacity := n }, by simp [set, name, hr], rfl, fun g hg => ?_⟩
    cases g <;> first | exact absurd rfl hg | rfl
  case expiryMs.integer n =>
    have hr : v.readInteger .i64 = .ok n := Value.readSigned_eq_ok hv hx rfl
    refine ⟨{ s with expiryMs := n }, by simp [set, name, hr], rfl, fun g hg => ?_⟩
    cases g <;> first | exact absurd rfl hg | rfl
  case maxBlocking.integer n =>
    have hr : v.readNatural .usize = .ok n.toNat := Value.readNatural_eq_ok hv hx rfl
    refine ⟨{ s with maxBlocking := n.toNat }, by simp [set, name, hr], ?_, fun g hg => ?_⟩
    · simp [of, hx.1]
    · cases g <;> first | exact absurd rfl hg | rfl
  case prealloc.flag b =>
    have hr := Value.readBool_eq_ok hv
    refine ⟨{ s with prealloc := b }, by simp [set, name, hr], rfl, fun g hg => ?_⟩
    cases g <;> first | exact absurd rfl hg | rfl
  case nonblocking.flag b =>
    have hr := Value.readBool_eq_ok hv
    refine ⟨{ s with nonblocking := b }, by simp [set, name, hr], rfl, fun g hg => ?_⟩
    cases g <;> first | exact absurd rfl hg | rfl
  case disablePurge.flag b =>
    have hr := Value.readBool_eq_ok hv
    refine ⟨{ s with disablePurge := b }, by simp [set, name, hr], rfl, fun g hg => ?_⟩
    cases g <;> first | exact absurd rfl hg | rfl

end Field

/-- The settings of that name are what the value spells, or the default if there is none. -/
def IsRead (n : String) (v? : Option Value) (s : PoolSettings) : Prop :=
  ∀ f : Field, f.name = n → f.of s = (v?.bind Value.setting?).getD (f.of {})

/-- A field is set, and whatever else has been read stays. -/
theorem isRead_of_set {f : Field} {v : Value} (h : ∃ x ∈ v.setting?, f.kind.Admits x)
    (s : PoolSettings) : ∃ t, set f.name v s = .ok t ∧ IsRead f.name (some v) t ∧
      ∀ m, m ≠ f.name → ∀ v?, IsRead m v? s → IsRead m v? t := by
  obtain ⟨x, hvx, hx⟩ := h
  rw [Option.mem_def] at hvx
  obtain ⟨t, ht, hft, hother⟩ := Field.exists_set hvx hx s
  refine ⟨t, ht, fun g hg => ?_, fun m hm v? hread g hg => ?_⟩
  · cases Field.name_injective hg
    simpa [hvx] using hft
  · rw [hother g (by rintro rfl; exact hm hg.symm)]
    exact hread g hg

/-- A section whose fields are all of the right type and range is read field by field. -/
theorem exists_ofValue {es : Entries} (hes : es.IsSorted)
    (h : ∀ f : Field, ∀ v, find? f.name es = some v → ∃ x ∈ v.setting?, f.kind.Admits x) :
    ∃ s, ofValue (.dict es) = .ok s ∧
      ∀ f : Field, f.of s = ((find? f.name es).bind Value.setting?).getD (f.of {}) := by
  have hset : ∀ n ∈ fields, ∀ v s, find? n es = some v → ∃ t, set n v s = .ok t ∧
      IsRead n (some v) t ∧ ∀ m, m ≠ n → ∀ v?, IsRead m v? s → IsRead m v? t := by
    intro n hn v s hv
    obtain ⟨f, rfl⟩ := Field.mem_fields_iff.mp hn
    exact isRead_of_set (h f v hv) s
  obtain ⟨s, hs, hall⟩ := Value.exists_readRecord hes hset fun n _ f _ => rfl
  exact ⟨s, hs, fun f => hall f.name (Field.mem_fields_iff.mpr ⟨f, rfl⟩) f rfl⟩

end PoolSettings

/-! ## The settings of a process -/

namespace RuntimeSettings

/-- The settings of a process, one by one. -/
inductive Field where
  | pool (f : PoolSettings.Field)
  | period
  deriving DecidableEq, Repr

namespace Field

instance (P : Field → Prop) [DecidablePred P] : Decidable (∀ f, P f) :=
  decidable_of_iff ((∀ f, P (pool f)) ∧ P period)
    ⟨fun ⟨hpool, hperiod⟩ f => f.rec hpool hperiod, fun h => ⟨fun f => h (pool f), h period⟩⟩

/-- The keys that lead to a setting. -/
def path : Field → List String
  | pool f => ["worker_pool", f.name]
  | period => ["default_task_period_ms"]

theorem path_ne_nil (f : Field) : f.path ≠ [] := by
  cases f <;> simp [path]

/-- The setting in given settings. -/
def of (s : RuntimeSettings) : Field → Setting
  | pool f => f.of s.workerPool
  | period => .integer s.defaultPeriodMs

/-- The type and the range of a setting. -/
def kind : Field → Kind
  | pool f => f.kind
  | period => .integer 0 (Word.count 64)

/-- Is this value of the right type and range? -/
def Takes (f : Field) (v : Value) : Prop := ∃ x ∈ v.setting?, f.kind.Admits x

instance (f : Field) (v : Value) : Decidable (f.Takes v) :=
  inferInstanceAs (Decidable (∃ x ∈ v.setting?, f.kind.Admits x))

theorem Takes.isSome {f : Field} {v : Value} (h : f.Takes v) : v.setting?.isSome := by
  obtain ⟨x, hx, -⟩ := h
  exact Option.isSome_of_mem hx

/-- Settings are no more than their fields. -/
theorem ext_of {s t : RuntimeSettings} (h : ∀ f : Field, f.of s = f.of t) : s = t := by
  have h1 := h (pool .capacity)
  have h2 := h (pool .expiryMs)
  have h3 := h (pool .prealloc)
  have h4 := h (pool .maxBlocking)
  have h5 := h (pool .nonblocking)
  have h6 := h (pool .disablePurge)
  have h7 := h period
  obtain ⟨⟨⟩, _⟩ := s
  obtain ⟨⟨⟩, _⟩ := t
  simp only [of, PoolSettings.Field.of, Setting.integer.injEq, Setting.flag.injEq] at *
  simp_all only [Int.natCast_inj]

end Field

/-- The settings below that key are what the value spells, or the default if there is none. -/
def IsRead (n : String) (v? : Option Value) (s : RuntimeSettings) : Prop :=
  ∀ f : Field, ∀ rest, f.path = n :: rest →
    f.of s = ((v?.bind (·.at? rest)).bind Value.setting?).getD (f.of {})

/-- The section of the pool is read, and whatever else has been read stays. -/
theorem isRead_of_section {fs : Entries} (hfs : fs.IsSorted)
    (h : ∀ f : PoolSettings.Field, ∀ w, find? f.name fs = some w → (Field.pool f).Takes w)
    (s : RuntimeSettings) : ∃ t, set "worker_pool" (.dict fs) s = .ok t ∧
      IsRead "worker_pool" (some (.dict fs)) t ∧
      ∀ m, m ≠ "worker_pool" → ∀ v?, IsRead m v? s → IsRead m v? t := by
  obtain ⟨p, hp, hpall⟩ := PoolSettings.exists_ofValue hfs h
  refine ⟨{ s with workerPool := p }, by simp [set, hp], ?_, ?_⟩
  · rintro (f | _) rest hpath
    · cases hpath
      simpa [Field.of] using hpall f
    · simp [Field.path] at hpath
  · rintro m hm v? hread (f | _) rest hpath
    · cases hpath
      exact absurd rfl hm
    · exact hread .period rest hpath

/-- The period is read, and whatever else has been read stays. -/
theorem isRead_of_period {v : Value} (h : Field.period.Takes v) (s : RuntimeSettings) :
    ∃ t, set "default_task_period_ms" v s = .ok t ∧
      IsRead "default_task_period_ms" (some v) t ∧
      ∀ m, m ≠ "default_task_period_ms" → ∀ v?, IsRead m v? s → IsRead m v? t := by
  obtain ⟨x, hvx, hx⟩ := h
  rw [Option.mem_def] at hvx
  cases x with
  | flag b => exact hx.elim
  | integer k =>
    have hr : v.readNatural .u64 = .ok k.toNat := Value.readNatural_eq_ok hvx hx rfl
    refine ⟨{ s with defaultPeriodMs := k.toNat }, by simp [set, hr], ?_, ?_⟩
    · rintro (f | _) rest hpath
      · simp [Field.path] at hpath
      · cases hpath
        simp [Field.of, hvx, hx.1]
    · rintro m hm v? hread (f | _) rest hpath
      · exact hread (.pool f) rest hpath
      · cases hpath
        exact absurd rfl hm

/-- Entries whose fields are all of the right type and range are read field by field. -/
theorem exists_ofValue {es : Entries} (hes : (Value.dict es).IsSorted)
    (hsection : ∀ v, find? "worker_pool" es = some v → ∃ fs, v = .dict fs)
    (h : ∀ f : Field, ∀ v, (Value.dict es).at? f.path = some v → f.Takes v) :
    ∃ s, ofValue (.dict es) = .ok s ∧
      ∀ f : Field, f.of s =
        (((Value.dict es).at? f.path).bind Value.setting?).getD (f.of {}) := by
  rw [Value.isSorted_dict_iff] at hes
  have hset : ∀ n ∈ fields, ∀ v s, find? n es = some v → ∃ t, set n v s = .ok t ∧
      IsRead n (some v) t ∧ ∀ m, m ≠ n → ∀ v?, IsRead m v? s → IsRead m v? t := by
    intro n hn v s hv
    simp only [fields, List.mem_cons, List.not_mem_nil, or_false] at hn
    rcases hn with rfl | rfl
    · obtain ⟨fs, rfl⟩ := hsection v hv
      exact isRead_of_section (Value.isSorted_dict_iff.mp (hes.2 _ _ hv)).1
        (fun f w hw => h (.pool f) w (by simpa [Field.path, hv] using hw)) s
    · exact isRead_of_period (h .period v (by simpa [Field.path] using hv)) s
  obtain ⟨s, hs, hall⟩ := Value.exists_readRecord hes.1 hset fun n _ f _ _ => rfl
  refine ⟨s, hs, fun f => ?_⟩
  cases f with
  | pool f => exact hall "worker_pool" (by simp [fields]) (.pool f) _ rfl
  | period => exact hall "default_task_period_ms" (by simp [fields]) .period _ rfl

end RuntimeSettings

end Overseer
