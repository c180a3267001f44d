import Pointbreak.Event.Envelope

/-!
# Projection.BodyContent

Bodies that live outside the events. Reading one goes to the store and consults the reader's removal
lens; both are given from outside, and what they return is either content or an error.
-/

namespace Pointbreak

inductive BodyContentState where
  | present | suppressedPresent | physicallyRemoved

inductive ContentAvailabilityV1 where
  | available | removed | missing | mismatch | nonTextual

inductive BodyContent where
  | present (text : Option Text)
  | suppressedPresent (contentHash : Text)
  | physicallyRemoved (contentHash : Text)
  | unavailable (contentHash : Text) (availability : ContentAvailabilityV1)

namespace BodyContent

def state : BodyContent → BodyContentState
  | .present _ => .present
  | .suppressedPresent _ => .suppressedPresent
  | .physicallyRemoved _ => .physicallyRemoved
  | .unavailable _ _ => .present

def intoText : BodyContent → Option Text
  | .present text => text
  | .suppressedPresent _ | .physicallyRemoved _ | .unavailable _ _ => none

end BodyContent

structure StoreBackend where
  loadBodyArtifact : Text → Result (Option Text)

/-- What a body resolves to, given whether to include it, its inline text, its artifact path, its
expected hash, and whether the read is for display. -/
structure BodyRemovalLens where
  resolveBodyContentForRead : StoreBackend → Bool → Option Text → Option Text → Option Text →
    Bool → Result BodyContent

end Pointbreak
