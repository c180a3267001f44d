import Pointbreak.Event.Stored

/-!
# Store.Journal

The Journal: opaque bytes, each at the SHA-256 of its logical key. A record is created once and then
never written again; there is no other write. `Grows` is what that says about any run of creates.
-/

namespace Pointbreak

open Std

/-- Stored bytes by key digest. -/
abbrev Journal (B : Type) : Type := BTreeMap Text B

structure JournalEntry (B : Type) where
  keyDigest : Text
  bytes : B

inductive CreateOutcome where
  | created | alreadyExists

namespace Journal

variable {B : Type} (sha : Sha256)

def createRecordOnce (journal : Journal B) (logicalKey : Text) (bytes : B) :
    CreateOutcome × Journal B :=
  if journal.contains (sha logicalKey) then (.alreadyExists, journal)
  else (.created, journal.insert (sha logicalKey) bytes)

def readEventBytes (journal : Journal B) (logicalKey : Text) : Option B :=
  journal[sha logicalKey]?

def recordExists (journal : Journal B) (logicalKey : Text) : Bool :=
  journal.contains (sha logicalKey)

def listRecordEntries (journal : Journal B) : List (JournalEntry B) :=
  journal.toList.map fun entry => ⟨entry.1, entry.2⟩

variable {journal journal' : Journal B} {entry : JournalEntry B}

theorem mem_listRecordEntries :
    entry ∈ journal.listRecordEntries ↔ journal[entry.keyDigest]? = some entry.bytes := by
  rw [listRecordEntries, List.mem_map]
  constructor
  · rintro ⟨⟨digest, bytes⟩, h, rfl⟩
    exact BTreeMap.mem_toList_iff.mp h
  · intro h
    exact ⟨(entry.keyDigest, entry.bytes), BTreeMap.mem_toList_iff.mpr h, rfl⟩

theorem nodup_keyDigests (journal : Journal B) :
    (journal.listRecordEntries.map (·.keyDigest)).Nodup := by
  rw [listRecordEntries, List.map_map]
  exact BTreeMap.nodup_fst journal

theorem nodup_listRecordEntries (journal : Journal B) : journal.listRecordEntries.Nodup :=
  .of_map _ (nodup_keyDigests journal)

/-- The records of the second Journal that the first one does not have. -/
def newEntries (journal journal' : Journal B) : List (JournalEntry B) :=
  journal'.listRecordEntries.filter fun entry => !journal.contains entry.keyDigest

theorem mem_newEntries : entry ∈ newEntries journal journal' ↔
    journal'[entry.keyDigest]? = some entry.bytes ∧ journal[entry.keyDigest]? = none := by
  rw [newEntries, List.mem_filter, mem_listRecordEntries,
    ← ExtTreeMap.isSome_getElem?_eq_contains]
  cases journal[entry.keyDigest]? <;> simp

/-- No record was changed or lost. -/
def Grows (journal journal' : Journal B) : Prop :=
  ∀ (digest : Text) (bytes : B), journal[digest]? = some bytes → journal'[digest]? = some bytes

theorem Grows.perm (h : Grows journal journal') : journal'.listRecordEntries.Perm
    (journal.listRecordEntries ++ newEntries journal journal') := by
  have hdisjoint : (journal.listRecordEntries ++ newEntries journal journal').Nodup := by
    refine List.nodup_append.mpr ⟨nodup_listRecordEntries journal,
      (nodup_listRecordEntries journal').filter _, ?_⟩
    rintro entry hold _ hnew rfl
    rw [mem_listRecordEntries, (mem_newEntries.mp hnew).2] at hold
    cases hold
  refine (List.perm_ext_iff_of_nodup (nodup_listRecordEntries journal') hdisjoint).mpr ?_
  intro entry
  rw [List.mem_append, mem_listRecordEntries, mem_listRecordEntries, mem_newEntries]
  constructor
  · intro hget
    cases hold : journal[entry.keyDigest]? with
    | none => exact .inr ⟨hget, rfl⟩
    | some bytes =>
      have hsame := h _ _ hold
      rw [hget] at hsame
      exact .inl hsame.symm
  · rintro (hold | hnew)
    · exact h _ _ hold
    · exact hnew.1

end Journal

end Pointbreak
