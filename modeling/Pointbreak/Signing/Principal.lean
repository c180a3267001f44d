import Pointbreak.Event.Stored
import Pointbreak.Model.Instant

/-!
# Signing.Principal

Whose responsibility a write is. A person is their own principal; an agent has the principals that
the delegation map gives it at the instant of the write, and one principal only will do.
-/

namespace Pointbreak

open Std

/-- From an instant on, and before another one if there is one, in epoch milliseconds. -/
structure ValidityWindow where
  fromMs : Int
  untilMs : Option Int

def ValidityWindow.contains (window : ValidityWindow) (instant : Int) : Bool :=
  window.fromMs ≤ instant && window.untilMs.all fun untilMs => instant < untilMs

structure DelegationRecord where
  principal : ActorId
  window : ValidityWindow

structure DelegationMap where
  delegates : BTreeMap ActorId (List DelegationRecord) := ∅

inductive UnresolvedReason where
  | noDelegationRecord | noCoveringWindow | unparseableTimestamp

inductive PrincipalResolution where
  | resolved (principal : ActorId)
  | none (reason : UnresolvedReason)
  | ambiguous (principals : List ActorId)

inductive PrincipalPolicy where
  | none | prefer | requireResolvablePrincipal
deriving DecidableEq

def isAgentActorId (value : Text) : Bool :=
  (text "actor:agent:").isPrefixOf value && !(value.drop (text "actor:agent:").length).isEmpty

def DelegationMap.recordsFor (map : DelegationMap) (actor : ActorId) : List DelegationRecord :=
  map.delegates[actor]?.getD []

def DelegationMap.resolve (map : DelegationMap) (actor : ActorId) (occurredAt : Text) :
    PrincipalResolution :=
  match parseEventInstant occurredAt with
  | Option.none => .none .unparseableTimestamp
  | some instant =>
    if (map.recordsFor actor).isEmpty then .none .noDelegationRecord
    else
      let principals := BTreeSet.collect (((map.recordsFor actor).filter fun record =>
        record.window.contains instant).map (·.principal))
      match principals.toList with
      | [] => .none .noCoveringWindow
      | [principal] => .resolved principal
      | principals => .ambiguous principals

/-- No resolution for a writer that is its own principal. -/
def principalResolutionForWriter (writerActor : ActorId) (map : DelegationMap) (occurredAt : Text) :
    Option PrincipalResolution :=
  if isAgentActorId writerActor.asStr then some (map.resolve writerActor occurredAt) else none

def principalSufficient (writerActor : ActorId) (occurredAt : Text)
    (delegationMap : Option DelegationMap) (policy : PrincipalPolicy) : Bool :=
  match policy with
  | .none | .prefer => true
  | .requireResolvablePrincipal =>
    if !isAgentActorId writerActor.asStr then true
    else
      match delegationMap.map (DelegationMap.resolve · writerActor occurredAt) with
      | some (.resolved principal) => !isAgentActorId principal.asStr
      | _ => false

end Pointbreak
