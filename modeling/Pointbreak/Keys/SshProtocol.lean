import Mathlib.Algebra.BigOperators.Group.List.Basic
import Pointbreak.Model.Ids

/-!
# Keys.SshProtocol

The wire format of the SSH agent. A string is its length, four bytes with the highest first, and
then its bytes; a message is a string of its own. Lengths are cut to 32 bits when they are written,
so strings read back when they are shorter than `2 ^ 32`.
-/

namespace Pointbreak

/-- `(n as u32).to_be_bytes()`. -/
def toBeBytes (n : Nat) : List UInt8 :=
  [UInt8.ofNat (n / 2 ^ 24), UInt8.ofNat (n / 2 ^ 16), UInt8.ofNat (n / 2 ^ 8), UInt8.ofNat n]

/-- `u32::from_be_bytes`. -/
def fromBeBytes (bytes : List UInt8) : Nat :=
  bytes.foldl (fun n byte => n * 256 + byte.toNat) 0

def putSshString (out value : List UInt8) : List UInt8 :=
  out ++ toBeBytes value.length ++ value

def readSshString (cursor : List UInt8) : Option (List UInt8 × List UInt8) :=
  if cursor.length < 4 then none
  else
    let (lenBytes, rest) := cursor.splitAt 4
    let len := fromBeBytes lenBytes
    if rest.length < len then none else some (rest.splitAt len)

def agentProtocol (message : Text) : ShoreError :=
  .message (text "ssh-agent protocol error: " ++ message)

def agentFailure (message : Text) : ShoreError :=
  .message (text "ssh-agent failure: " ++ message)

def readAgentString (cursor : List UInt8) : Result (List UInt8 × List UInt8) :=
  Result.okOr (readSshString cursor) (agentProtocol (text "truncated SSH string"))

def readU32 (cursor : List UInt8) : Result (Nat × List UInt8) :=
  if cursor.length < 4 then .error (agentProtocol (text "truncated u32"))
  else
    let (head, rest) := cursor.splitAt 4
    .ok (fromBeBytes head, rest)

def frameMessage (body : List UInt8) : List UInt8 := toBeBytes body.length ++ body

def unframeMessage (frame : List UInt8) : Result (List UInt8) := do
  let (body, cursor) ← Result.okOr (readSshString frame)
    (agentProtocol (text "truncated agent message frame"))
  if !cursor.isEmpty then .error (agentProtocol (text "trailing bytes after agent message"))
  else .ok body

def SSH_AGENT_FAILURE : UInt8 := 5
def SSH_AGENT_IDENTITIES_ANSWER : UInt8 := 12
def SSH_AGENTC_SIGN_REQUEST : UInt8 := 13
def SSH_AGENT_SIGN_RESPONSE : UInt8 := 14

def SSH_ED25519_TYPE : List UInt8 := text "ssh-ed25519"
def ED25519_SIGNATURE_LEN : Nat := 64

def ed25519KeyBlob (publicKey : Vector UInt8 32) : List UInt8 :=
  putSshString (putSshString [] SSH_ED25519_TYPE) publicKey.toList

def signRequestBytes (publicKey : Vector UInt8 32) (data : List UInt8) : List UInt8 :=
  let body := putSshString [SSH_AGENTC_SIGN_REQUEST] (ed25519KeyBlob publicKey)
  frameMessage (putSshString body data ++ toBeBytes 0)

/-- What follows the type of a reply, which is the expected one. -/
def replyBody (expected : UInt8) (failure unexpected : Text) (frame : List UInt8) :
    Result (List UInt8) := do
  match ← unframeMessage frame with
  | [] => .error (agentProtocol (text "empty agent message body"))
  | msgType :: cursor =>
    if msgType = SSH_AGENT_FAILURE then .error (agentFailure failure)
    else if msgType ≠ expected then .error (agentProtocol unexpected)
    else .ok cursor

def readBlobs : Nat → List UInt8 → List (List UInt8) → Result (List (List UInt8))
  | 0, _, blobs => .ok blobs
  | nkeys + 1, cursor, blobs => do
    let (blob, cursor) ← readAgentString cursor
    let (_, cursor) ← readAgentString cursor
    readBlobs nkeys cursor (blobs ++ [blob])

def parseIdentitiesAnswer (frame : List UInt8) : Result (List (List UInt8)) := do
  let cursor ← replyBody SSH_AGENT_IDENTITIES_ANSWER (text "agent refused to list identities")
    (text "unexpected reply to identities request") frame
  let (nkeys, cursor) ← readU32 cursor
  readBlobs nkeys cursor []

/-- The signature, as `fromBytes` writes its bytes. -/
def parseSignResponse (fromBytes : List UInt8 → Text) (frame : List UInt8) : Result Text := do
  let cursor ← replyBody SSH_AGENT_SIGN_RESPONSE
    (text "agent refused to sign (locked or no matching key)")
    (text "unexpected reply to sign request") frame
  let (signatureBlob, _) ← readAgentString cursor
  let (innerType, inner) ← readAgentString signatureBlob
  if innerType ≠ SSH_ED25519_TYPE then
    .error (agentProtocol (text "signature is not an ssh-ed25519 signature"))
  else
    let (raw, _) ← readAgentString inner
    if raw.length ≠ ED25519_SIGNATURE_LEN then
      .error (agentProtocol (text "ssh-ed25519 signature is not 64 bytes"))
    else .ok (fromBytes raw)

open List

section ReadBack

variable {out out' value value' body trailing : List UInt8}

theorem length_toBeBytes (n : Nat) : (toBeBytes n).length = 4 := rfl

theorem fromBeBytes_toBeBytes {n : Nat} (h : n < 2 ^ 32) : fromBeBytes (toBeBytes n) = n := by
  simp only [fromBeBytes, toBeBytes, foldl_cons, foldl_nil, UInt8.toNat_ofNat']
  omega

theorem splitAt_toBeBytes (n : Nat) :
    (toBeBytes n ++ trailing).splitAt 4 = (toBeBytes n, trailing) := by
  simp [toBeBytes]

theorem putSshString_eq (out value : List UInt8) :
    putSshString out value = out ++ frameMessage value :=
  append_assoc ..

theorem putSshString_inj (hlen : out.length = out'.length)
    (h : putSshString out value = putSshString out' value') : out = out' ∧ value = value' := by
  obtain ⟨hout, hvalue⟩ := append_inj h (by simp [hlen, length_toBeBytes])
  exact ⟨(append_inj hout hlen).1, hvalue⟩

theorem readSshString_of_length (h : value.length < 2 ^ 32) :
    readSshString (toBeBytes value.length ++ trailing) =
      if trailing.length < value.length then none else some (trailing.splitAt value.length) := by
  rw [readSshString, if_neg (by simp [length_toBeBytes]), splitAt_toBeBytes]
  simp only [fromBeBytes_toBeBytes h]

theorem readSshString_frame (h : value.length < 2 ^ 32) :
    readSshString (frameMessage value ++ trailing) = some (value, trailing) := by
  rw [frameMessage, append_assoc, readSshString_of_length h]
  simp

theorem readAgentString_frame (h : value.length < 2 ^ 32) :
    readAgentString (frameMessage value ++ trailing) = .ok (value, trailing) := by
  rw [readAgentString, readSshString_frame h]
  rfl

theorem readSshString_cut {cut : List UInt8} (h : body.length < 2 ^ 32)
    (hcut : cut <+: frameMessage body) (hne : cut ≠ frameMessage body) :
    readSshString cut = none := by
  have hlt : cut.length < 4 + body.length := by
    have hle := hcut.length_le
    have hlen : cut.length ≠ (frameMessage body).length := fun he => hne (hcut.eq_of_length he)
    simp only [frameMessage, length_append, length_toBeBytes] at hle hlen
    omega
  by_cases hshort : cut.length < 4
  · rw [readSshString, if_pos hshort]
  · rw [prefix_iff_eq_take.mp hcut, frameMessage, take_append,
      take_of_length_le (by rw [length_toBeBytes]; omega), length_toBeBytes,
      readSshString_of_length h, if_pos (by rw [length_take]; omega)]

theorem replyBody_cut {cut : List UInt8} (h : body.length < 2 ^ 32)
    (hcut : cut <+: frameMessage body) (hne : cut ≠ frameMessage body) (expected : UInt8)
    (failure unexpected : Text) :
    replyBody expected failure unexpected cut =
      .error (agentProtocol (text "truncated agent message frame")) := by
  rw [replyBody, unframeMessage, readSshString_cut h hcut hne]
  rfl

def readSshStrings : Nat → List UInt8 → Option (List (List UInt8) × List UInt8)
  | 0, cursor => some ([], cursor)
  | count + 1, cursor => do
    let (value, cursor) ← readSshString cursor
    let (values, cursor) ← readSshStrings count cursor
    some (value :: values, cursor)

theorem readSshStrings_put {values : List (List UInt8)} (h : ∀ v ∈ values, v.length < 2 ^ 32) :
    readSshStrings values.length (values.flatMap (putSshString []) ++ trailing) =
      some (values, trailing) := by
  induction values with
  | nil => rfl
  | cons value values ih =>
    rw [flatMap_cons, append_assoc, putSshString_eq, nil_append, length_cons,
      readSshStrings, readSshString_frame (h value (.head _))]
    change (readSshStrings _ _).bind _ = _
    rw [ih fun v hv => h v (.tail _ hv)]
    rfl

def putKey (key : List UInt8 × List UInt8) : List UInt8 :=
  putSshString (putSshString [] key.1) key.2

def identitiesAnswer (keys : List (List UInt8 × List UInt8)) : List UInt8 :=
  [SSH_AGENT_IDENTITIES_ANSWER] ++ toBeBytes keys.length ++ keys.flatMap putKey

theorem putKey_eq (key : List UInt8 × List UInt8) :
    putKey key = frameMessage key.1 ++ frameMessage key.2 := by
  rw [putKey, putSshString_eq, putSshString_eq, nil_append]

theorem readBlobs_put {keys : List (List UInt8 × List UInt8)} {blobs : List (List UInt8)}
    (h : (keys.flatMap putKey).length < 2 ^ 32) :
    readBlobs keys.length (keys.flatMap putKey) blobs = .ok (blobs ++ keys.map Prod.fst) := by
  induction keys generalizing blobs with
  | nil => simp [readBlobs]
  | cons key keys ih =>
    rw [flatMap_cons, putKey_eq, append_assoc] at h ⊢
    simp only [frameMessage, length_append] at h
    rw [length_cons, readBlobs, readAgentString_frame (by omega)]
    change (readAgentString _ >>= fun next => readBlobs _ next.2 _) = _
    rw [readAgentString_frame (by omega)]
    change readBlobs _ _ _ = _
    rw [ih (by omega), map_cons, append_assoc]
    rfl

theorem parseIdentitiesAnswer_put {keys : List (List UInt8 × List UInt8)}
    (h : (identitiesAnswer keys).length < 2 ^ 32) :
    parseIdentitiesAnswer (frameMessage (identitiesAnswer keys)) = .ok (keys.map Prod.fst) := by
  have hread : unframeMessage (frameMessage (identitiesAnswer keys)) =
      .ok (identitiesAnswer keys) := by
    rw [unframeMessage, ← append_nil (frameMessage _), readSshString_frame h]
    rfl
  have hcount : keys.length ≤ (keys.flatMap putKey).length := by
    rw [length_flatMap, ← length_map (putKey · |>.length)]
    refine length_le_sum_of_one_le _ fun n hn => ?_
    obtain ⟨key, -, rfl⟩ := mem_map.mp hn
    simp only [putKey_eq, frameMessage, length_append, length_toBeBytes]
    omega
  rw [identitiesAnswer, length_append] at h
  rw [parseIdentitiesAnswer, replyBody, hread]
  change (readU32 (toBeBytes keys.length ++ keys.flatMap putKey) >>= fun next =>
    readBlobs next.1 next.2 []) = _
  rw [readU32, if_neg (by simp [length_toBeBytes]), splitAt_toBeBytes]
  change readBlobs (fromBeBytes _) _ _ = _
  rw [fromBeBytes_toBeBytes (by omega), readBlobs_put (by omega), nil_append]

theorem signRequestBytes_injective : Function.Injective2 signRequestBytes := by
  intro key key' data data' h
  have hframed := (append_inj h rfl).2
  obtain ⟨hbody, hdata⟩ := putSshString_inj
    (by simp [putSshString, ed25519KeyBlob, length_toBeBytes]) (append_inj' hframed rfl).1
  have hblob := (putSshString_inj rfl hbody).2
  exact ⟨Vector.toList_inj.mp (putSshString_inj rfl hblob).2, hdata⟩

end ReadBack

/-- Strings read back from what was written, whatever follows them; a sign request is for one key
and one data; an answer gives the blobs of its keys; and a message that was cut short is refused
by both parsers. -/
theorem ssh_framing_unambiguous (fromBytes : List UInt8 → Text) :
    (∀ (values : List (List UInt8)) (trailing : List UInt8),
      (∀ value ∈ values, value.length < 2 ^ 32) →
      readSshStrings values.length (values.flatMap (putSshString []) ++ trailing) =
        some (values, trailing)) ∧
    Function.Injective2 signRequestBytes ∧
    (∀ keys : List (List UInt8 × List UInt8), (identitiesAnswer keys).length < 2 ^ 32 →
      parseIdentitiesAnswer (frameMessage (identitiesAnswer keys)) = .ok (keys.map Prod.fst)) ∧
    ∀ body cut : List UInt8, body.length < 2 ^ 32 → cut <+: frameMessage body →
      cut ≠ frameMessage body →
      (parseIdentitiesAnswer cut).isOk = false ∧ (parseSignResponse fromBytes cut).isOk = false := by
  refine ⟨fun values trailing h => readSshStrings_put h, signRequestBytes_injective,
    fun keys h => parseIdentitiesAnswer_put h, fun body cut h hcut hne => ?_⟩
  rw [parseIdentitiesAnswer, parseSignResponse, replyBody_cut h hcut hne, replyBody_cut h hcut hne]
  exact ⟨rfl, rfl⟩

theorem two_keys_answer_framed :
    readSshStrings 2 ([[1, 2], []].flatMap (putSshString []) ++ [7]) = some ([[1, 2], []], [7]) ∧
    parseIdentitiesAnswer (frameMessage (identitiesAnswer [([1], [2, 3]), ([4], [])])) =
      .ok [[1], [4]] ∧
    (parseIdentitiesAnswer (frameMessage (identitiesAnswer [([1], [2])])).dropLast).isOk = false := by
  obtain ⟨hstrings, -, hkeys, hcut⟩ := ssh_framing_unambiguous id
  refine ⟨hstrings [[1, 2], []] [7] (by decide +kernel), hkeys _ (by decide +kernel), ?_⟩
  exact (hcut _ _ (by decide +kernel) ( dropLast_prefix _) (by decide +kernel)).1

end Pointbreak
