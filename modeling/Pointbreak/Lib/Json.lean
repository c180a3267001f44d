import Pointbreak.Lib.Text

/-!
# Lib.Json

JSON values, their canonical form (object keys sorted, recursively) and their compact text. An
object is the list of its fields; `canonical` is what makes the order in which they were written
irrelevant (`canonicalFields_of_canonical`).
-/

/-- A JSON value; numbers are the natural numbers. -/
inductive Json where
  | null
  | bool (b : Bool)
  | num (n : Nat)
  | str (s : Text)
  | arr (items : List Json)
  | obj (fields : List (Text × Json))

namespace Json

open List

def keyLE (a b : Text × Json) : Prop := (compare a.1 b.1).isLE = true

instance : DecidableRel keyLE := fun _ _ => inferInstanceAs (Decidable (_ = true))

mutual

def canonical : Json → Json
  | .arr items => .arr (canonicalItems items)
  | .obj fields => .obj ((canonicalFields fields).insertionSort keyLE)
  | .null => .null
  | .bool b => .bool b
  | .num n => .num n
  | .str s => .str s

def canonicalItems : List Json → List Json
  | [] => []
  | v :: vs => canonical v :: canonicalItems vs

def canonicalFields : List (Text × Json) → List (Text × Json)
  | [] => []
  | (k, v) :: fs => (k, canonical v) :: canonicalFields fs

end

attribute [simp] canonicalItems canonicalFields

@[simp] theorem canonical_str (s : Text) : canonical (.str s) = .str s := by rw [canonical]

@[simp] theorem canonical_arr (items : List Json) :
    canonical (.arr items) = .arr (canonicalItems items) := by rw [canonical]

theorem canonicalItems_eq_map (items : List Json) : canonicalItems items = items.map canonical := by
  induction items with
  | nil => rfl
  | cons v vs ih => rw [canonicalItems, ih, map_cons]

theorem map_fst_canonicalFields (fields : List (Text × Json)) :
    (canonicalFields fields).map Prod.fst = fields.map Prod.fst := by
  induction fields with
  | nil => rfl
  | cons f fs ih =>
    obtain ⟨k, v⟩ := f
    rw [canonicalFields, map_cons, map_cons, ih]

theorem eq_of_perm_of_keys {α β : Type} {l l' : List (α × β)} (hp : l.Perm l')
    (hk : l.map Prod.fst = l'.map Prod.fst) (hn : (l.map Prod.fst).Nodup) : l = l' := by
  induction l generalizing l' with
  | nil => exact hp.nil_eq
  | cons f fs ih =>
    cases l' with
    | nil => cases hk
    | cons g gs =>
      simp only [map_cons, List.cons.injEq, nodup_cons] at hk hn
      have hfg : f = g := by
        have hmem : f ∈ g :: gs := hp.subset (.head _)
        cases hmem with
        | head => rfl
        | tail _ hgs => exact absurd (hk.2 ▸ mem_map_of_mem hgs) hn.1
      subst hfg
      rw [ih ((perm_cons f).mp hp) hk.2 hn.2]

theorem perm_of_canonical {fields fields' : List (Text × Json)}
    (h : canonical (.obj fields) = canonical (.obj fields')) :
    (canonicalFields fields).Perm (canonicalFields fields') := by
  rw [canonical, canonical, Json.obj.injEq] at h
  have hl := perm_insertionSort keyLE (canonicalFields fields)
  have hr := perm_insertionSort keyLE (canonicalFields fields')
  rw [h] at hl
  exact hl.symm.trans hr

/-- Two objects that list the same distinct keys in the same order have one canonical form only
when their values have, key by key. -/
theorem canonicalFields_of_canonical (keys : List Text) {fields fields' : List (Text × Json)}
    (hk : fields.map Prod.fst = keys) (hk' : fields'.map Prod.fst = keys) (hn : keys.Nodup)
    (h : canonical (.obj fields) = canonical (.obj fields')) :
    canonicalFields fields = canonicalFields fields' := by
  apply eq_of_perm_of_keys (perm_of_canonical h)
  · rw [map_fst_canonicalFields, map_fst_canonicalFields, hk, hk']
  · rw [map_fst_canonicalFields, hk]
    exact hn

def escape (byte : UInt8) : Text :=
  match byte.toNat with
  | 34 => text "\\\""
  | 92 => text "\\\\"
  | 8 => text "\\b"
  | 9 => text "\\t"
  | 10 => text "\\n"
  | 12 => text "\\f"
  | 13 => text "\\r"
  | n => if n < 32 then text "\\u00" ++ [Text.hexDigit (n / 16), Text.hexDigit (n % 16)] else [byte]

def quote (s : Text) : Text := text "\"" ++ s.flatMap escape ++ text "\""

mutual

def render : Json → Text
  | .null => text "null"
  | .bool true => text "true"
  | .bool false => text "false"
  | .num n => text (Nat.repr n)
  | .str s => quote s
  | .arr items => text "[" ++ renderItems items ++ text "]"
  | .obj fields => text "\x7b" ++ renderFields fields ++ text "\x7d"

def renderItems : List Json → Text
  | [] => []
  | [v] => render v
  | v :: vs => render v ++ text "," ++ renderItems vs

def renderFields : List (Text × Json) → Text
  | [] => []
  | [(k, v)] => quote k ++ text ":" ++ render v
  | (k, v) :: fs => quote k ++ text ":" ++ render v ++ text "," ++ renderFields fs

end

end Json
