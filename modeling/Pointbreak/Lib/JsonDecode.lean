import Pointbreak.Lib.Json
import Pointbreak.Lib.KeyedLog

/-!
# Lib.JsonDecode

Reading a record back from a JSON object. The fields are found by name, so the order in which they
were written does not matter, and a record is read back from the canonical form of what was written
(`fields?_canonical`).
-/

namespace Json

open List

/-- The fields of an object by name. A known field is there at most once, and unknown ones may be
denied. -/
def fields? (known : List Text) (deny : Bool) : Json → Option (Text → Option Json)
  | .obj fields =>
    if (∀ name ∈ known, (fields.map Prod.fst).count name ≤ 1) ∧
        (deny = true → ∀ field ∈ fields, field.1 ∈ known) then
      some fun name => (fields.find? fun field => field.1 = name).map Prod.snd
    else none
  | _ => none

def str? : Json → Option Text
  | .str s => some s
  | _ => none

def items? : Json → Option (List Json)
  | .arr items => some items
  | _ => none

def optional? {α : Type} (read : Json → Option α) : Option Json → Option (Option α)
  | none => some none
  | some .null => some none
  | some value => (read value).map some

@[simp] theorem str?_str (s : Text) : str? (.str s) = some s := rfl

@[simp] theorem optional?_none {α : Type} (read : Json → Option α) :
    optional? read none = some none := rfl

@[simp] theorem optional?_str {α : Type} (read : Json → Option α) (s : Text) :
    optional? read (some (.str s)) = (read (.str s)).map some := rfl

theorem read_some {α β : Type} {x : Option α} {a : α} (h : x = some a) (f : α → Option β) :
    (x >>= f) = f a := by
  rw [h]
  rfl

theorem read_str {β : Type} {x : Option Json} {s : Text} (h : x = some (str s).canonical)
    (f : Text → Option β) : (x >>= fun value => str? value >>= f) = f s := by
  rw [h, canonical_str]
  rfl

theorem canonicalFields_eq_map (fields : List (Text × Json)) :
    canonicalFields fields = fields.map fun field => (field.1, field.2.canonical) := by
  induction fields with
  | nil => rfl
  | cons field fields ih =>
    obtain ⟨name, value⟩ := field
    rw [canonicalFields, ih, map_cons]

theorem fields?_canonical (known : List Text) (deny : Bool) (keys : List Text)
    (fields : List (Text × Json)) (hkeys : fields.map Prod.fst = keys) (hdistinct : keys.Nodup)
    (hknown : deny = true → ∀ key ∈ keys, key ∈ known) :
    ∃ get, fields? known deny (canonical (.obj fields)) = some get ∧
      (∀ name value, (name, value) ∈ fields → get name = some value.canonical) ∧
      ∀ name, name ∉ keys → get name = none := by
  subst hkeys
  have hperm := perm_insertionSort keyLE (canonicalFields fields)
  have hnames : (((canonicalFields fields).insertionSort keyLE).map Prod.fst).Perm
      (fields.map Prod.fst) := by
    have hmap := hperm.map Prod.fst
    rwa [map_fst_canonicalFields] at hmap
  have hmem : ∀ field, field ∈ (canonicalFields fields).insertionSort keyLE ↔
      ∃ written ∈ fields, (written.1, written.2.canonical) = field := by
    intro field
    rw [hperm.mem_iff, canonicalFields_eq_map, mem_map]
  refine ⟨fun name => (((canonicalFields fields).insertionSort keyLE).find? fun field =>
    field.1 = name).map Prod.snd, ?_, ?_, ?_⟩
  · rw [canonical, fields?, if_pos]
    refine ⟨fun name _ => ?_, fun hdeny field hfield => ?_⟩
    · rw [hnames.count_eq]
      exact nodup_iff_count_le_one.mp hdistinct name
    · obtain ⟨written, hwritten, rfl⟩ := (hmem field).mp hfield
      exact hknown hdeny written.1 (mem_map.mpr ⟨written, hwritten, rfl⟩)
  · intro name value hfield
    have hfound : (((canonicalFields fields).insertionSort keyLE).find? fun other =>
        other.1 = name).isSome := by
      rw [find?_isSome]
      exact ⟨_, (hmem _).mpr ⟨(name, value), hfield, rfl⟩, decide_eq_true rfl⟩
    obtain ⟨other, hother⟩ := Option.isSome_iff_exists.mp hfound
    obtain ⟨written, hwritten, rfl⟩ := (hmem other).mp (mem_of_find?_eq_some hother)
    have hname : written.1 = name := by simpa using find?_some hother
    obtain rfl := inj_on_of_nodup_map hdistinct hwritten hfield hname
    show Option.map Prod.snd _ = _
    rw [hother, Option.map_some]
  · intro name hname
    rw [Option.map_eq_none_iff, find?_eq_none]
    intro field hfield hsame
    obtain ⟨written, hwritten, rfl⟩ := (hmem field).mp hfield
    exact hname (mem_map.mpr ⟨written, hwritten, of_decide_eq_true hsame⟩)

theorem mapM_canonicalItems {α : Type} {read : Json → Option α} {write : α → Json}
    (h : ∀ a, read (write a).canonical = some a) (l : List α) :
    (canonicalItems (l.map write)).mapM read = some l := by
  induction l with
  | nil => rfl
  | cons a l ih => simp [h, ih]

theorem arr_map_canonical_inj {α : Type} {write : α → Json}
    (hinj : ∀ a b, (write a).canonical = (write b).canonical → a = b) {l l' : List α}
    (h : (Json.arr (l.map write)).canonical = (Json.arr (l'.map write)).canonical) : l = l' := by
  rw [canonical_arr, canonical_arr, Json.arr.injEq, canonicalItems_eq_map, canonicalItems_eq_map,
    map_map, map_map] at h
  exact map_injective_iff.mpr (fun a b hab => hinj a b hab) h

end Json
