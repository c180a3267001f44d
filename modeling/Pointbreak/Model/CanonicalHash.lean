import Pointbreak.Model.Ids

/-!
# Model.CanonicalHash

The hash every derived id is made of: SHA-256 over the compact text of a JSON value with its object
keys sorted. SHA-256 itself is a parameter; what the results need of it is stated for the values
that are really hashed.
-/

namespace Pointbreak

/-- SHA-256 of a byte string, as lowercase hexadecimal digits. -/
abbrev Sha256 : Type := Text → Text

def sha256JsonPrefixed (sha : Sha256) (value : Json) : Text :=
  text "sha256:" ++ sha value.canonical.render

def prefixedHash (sha : Sha256) (idPrefix : Text) (value : Json) : Text :=
  idPrefix ++ text ":" ++ sha256JsonPrefixed sha value

/-- No two of these values collide: values with one hash are one value up to key order. -/
def CollisionFree (sha : Sha256) (values : List Json) : Prop :=
  ∀ v ∈ values, ∀ w ∈ values,
    sha256JsonPrefixed sha v = sha256JsonPrefixed sha w → v.canonical = w.canonical

theorem collisionFree_of_nodup {sha : Sha256} {values : List Json}
    (h : (values.map (sha256JsonPrefixed sha)).Nodup) : CollisionFree sha values := by
  intro v hv w hw heq
  rw [List.inj_on_of_nodup_map h hv hw heq]

theorem CollisionFree.of_prefixedHash {sha : Sha256} {values : List Json}
    (h : CollisionFree sha values) {idPrefix : Text} {v w : Json} (hv : v ∈ values)
    (hw : w ∈ values) (heq : prefixedHash sha idPrefix v = prefixedHash sha idPrefix w) :
    v.canonical = w.canonical :=
  h v hv w hw (List.append_cancel_left heq)

end Pointbreak
