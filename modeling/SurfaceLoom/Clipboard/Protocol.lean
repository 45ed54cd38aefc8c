import SurfaceLoom.Core.CaseSpec
import SurfaceLoom.Lib.Base64
import SurfaceLoom.Lib.Checked

/-! # The clipboard protocol

What a transfer announces, how its bytes are cut into chunks, and the names and texts the
two sides agree on. Of a digest only that it is a text is known here, and of a name whether
it is in normal form C. -/
namespace SurfaceLoom.Clipboard.Protocol
open SurfaceLoom.Lib SurfaceLoom.Lib.Checked
open SurfaceLoom.Core (utf16Length)

abbrev Bytes := List UInt8

structure ProtocolError where
  code : String
  deriving DecidableEq

def protocolError {α : Type} (code : String) : Except ProtocolError α := .error ⟨code⟩

def protocolVersion : String := "slm-clipboard-v1"
def stateDirectory : String := ".slm-clipboard-transfer"
def defaultMaxCommandChars : Nat := 1800
def defaultChunkRawBytes : Nat := 1200
def maxTotalBytes : Nat := 67108864
def maxChunkRawBytes : Nat := 1048576
def maxChunks : Nat := 100000

/-! ## Names -/

/-- `[a-f0-9]` -/
def isHex (c : Char) : Bool := c.isDigit || ('a' ≤ c && c ≤ 'f')

def validateSessionId (value : String) : Except ProtocolError Unit :=
  if value.toList.length = 32 ∧ value.toList.all isHex then .ok ()
  else protocolError "INVALID_SESSION_ID"

/-- The case folding of `/iu`, as far as it leads to ASCII. -/
def foldCase (c : Char) : Char :=
  if c = 'ſ' then 's' else if c = '\u212a' then 'k' else c.toLower

def reservedStems : List String :=
  ["con", "prn", "aux", "nul", "conin$", "conout$", "clock$"] ++
    ["com", "lpt"].flatMap fun port => "123456789¹²³".toList.map fun c => port ++ c.toString

def isLineTerminator (c : Char) : Bool := c ∈ ['\n', '\r', '\u2028', '\u2029']

/-- A stem, and behind it nothing or a dot and no line terminator. -/
def isReservedName (name : String) : Bool :=
  reservedStems.any fun stem =>
    stem.toList.isPrefixOf (name.toList.map foldCase) &&
      match name.toList.drop stem.toList.length with
      | [] => true
      | '.' :: rest => rest.all fun c => !isLineTerminator c
      | _ => false

def isIllegalCharacter (c : Char) : Bool :=
  c ∈ ['<', '>', ':', '"', '/', '\\', '|', '?', '*'] || c.toNat < 0x20

/-- Of the characters whose lower case is an ASCII letter only `K` is left out. -/
def toLowerCase (name : String) : String := String.ofList (name.toList.map Char.toLower)

def validateTargetName (isNFC : String → Bool) (value : String) : Except ProtocolError Unit :=
  if value = "" ∨ utf16Length value > 240 ∨ isNFC value = false ∨ value = "." ∨ value = ".." ∨
      value.toList.getLast? = some ' ' ∨ value.toList.getLast? = some '.' ∨
      value.toList.any isIllegalCharacter ∨ isReservedName value ∨
      toLowerCase value = stateDirectory ∨
      ".slm-clipboard-".toList.isPrefixOf (toLowerCase value).toList then
    protocolError "INVALID_TARGET_NAME"
  else .ok ()

/-! ## Manifest and chunks -/

def canonicalBase64 (bytes : Bytes) : String := String.ofList (Base64.encode bytes)

/-- A text that is not the encoding of the bytes it decodes to is refused. -/
def decodeCanonicalBase64 (value : String) : Except ProtocolError Bytes :=
  match Base64.decode value.toList with
  | some bytes => .ok bytes
  | none => protocolError "NON_CANONICAL_BASE64"

structure Manifest where
  protocol : String
  sessionId : String
  targetName : String
  totalLength : Nat
  fileSha256 : String
  chunkRawBytes : Nat
  chunkCount : Nat
  deriving DecidableEq

/-- `Math.ceil(total / size)` -/
def ceilDiv (total size : Nat) : Nat := (total + size - 1) / size

/-- A chunk size that is not a natural number is refused with the code of one out of range. -/
def buildManifest (isNFC : String → Bool) (sha256 : Bytes → String) (sessionId targetName : String)
    (bytes : Bytes) (chunkRawBytes : Nat) : Except ProtocolError Manifest := do
  validateSessionId sessionId
  validateTargetName isNFC targetName
  if bytes.length > maxTotalBytes then protocolError "INVALID_INPUT"
  else if chunkRawBytes < 1 ∨ chunkRawBytes > maxChunkRawBytes then
    protocolError "INVALID_CHUNK_SIZE"
  else do
    let chunkCount := if bytes.length = 0 then 0 else ceilDiv bytes.length chunkRawBytes
    if chunkCount > maxChunks then protocolError "TOO_MANY_CHUNKS"
    else .ok ⟨protocolVersion, sessionId, targetName, bytes.length, sha256 bytes, chunkRawBytes,
      chunkCount⟩

structure Chunk where
  index : Nat
  rawLength : Nat
  sha256 : String
  base64 : String
  deriving DecidableEq

/-- The bytes of one chunk. -/
def subarray (bytes : Bytes) (m : Manifest) (index : Nat) : Bytes :=
  (bytes.drop (index * m.chunkRawBytes)).take m.chunkRawBytes

def splitChunks (sha256 : Bytes → String) (bytes : Bytes) (m : Manifest) : List Chunk :=
  (List.range m.chunkCount).map fun index =>
    let raw := subarray bytes m index
    ⟨index, raw.length, sha256 raw, canonicalBase64 raw⟩

/-- The length of a chunk below the count. -/
def chunkLength (m : Manifest) (index : Nat) : Nat :=
  min m.chunkRawBytes (m.totalLength - index * m.chunkRawBytes)

/-! ## What a built manifest says -/

variable {isNFC : String → Bool} {sha256 : Bytes → String} {sessionId targetName : String}
variable {bytes : Bytes} {chunkRawBytes : Nat} {m : Manifest}

/-- A manifest announces these bytes. -/
structure Announces (sha256 : Bytes → String) (m : Manifest) (bytes : Bytes) : Prop where
  totalLength : m.totalLength = bytes.length
  fileSha256 : m.fileSha256 = sha256 bytes
  positive : 0 < m.chunkRawBytes
  chunkCount : m.chunkCount = ceilDiv bytes.length m.chunkRawBytes
  bounded : m.chunkCount ≤ maxChunks

theorem ceilDiv_zero {size : Nat} (h : 0 < size) : ceilDiv 0 size = 0 :=
  Nat.div_eq_of_lt (by omega)

theorem lt_ceilDiv_iff {total size i : Nat} (h : 0 < size) :
    i < ceilDiv total size ↔ i * size < total := by
  rw [ceilDiv, Nat.lt_div_iff_mul_lt h]
  omega

theorem buildManifest_ok
    (h : buildManifest isNFC sha256 sessionId targetName bytes chunkRawBytes = .ok m) :
    validateSessionId m.sessionId = .ok () ∧ validateTargetName isNFC m.targetName = .ok () ∧
      Announces sha256 m bytes := by
  obtain ⟨⟨⟩, hsession, h⟩ := bind_ok.mp h
  obtain ⟨⟨⟩, hname, h⟩ := bind_ok.mp h
  split at h
  · cases h
  split at h
  · cases h
  rename_i hsize
  have hpositive : 0 < chunkRawBytes := by omega
  have hceil : (if bytes.length = 0 then 0 else ceilDiv bytes.length chunkRawBytes) =
      ceilDiv bytes.length chunkRawBytes := by
    split
    · rename_i hempty
      rw [hempty, ceilDiv_zero hpositive]
    · rfl
  dsimp only at h
  rw [hceil] at h
  split at h
  · cases h
  · rename_i hcount
    cases h
    exact ⟨hsession, hname, rfl, rfl, hpositive, rfl, Nat.le_of_not_lt hcount⟩

theorem subarray_length (h : m.totalLength = bytes.length) (index : Nat) :
    (subarray bytes m index).length = chunkLength m index := by
  rw [subarray, List.length_take, List.length_drop, chunkLength, h]

theorem flatten_subarrays (bytes : Bytes) (m : Manifest) (n : Nat) :
    ((List.range n).map (subarray bytes m)).flatten = bytes.take (n * m.chunkRawBytes) := by
  induction n with
  | zero => simp
  | succ n ih =>
    rw [List.range_succ, List.map_append, List.flatten_append, ih, Nat.succ_mul, List.take_add]
    simp [subarray]

/-- The chunks put together are the bytes. -/
theorem Announces.flatten (h : Announces sha256 m bytes) :
    ((List.range m.chunkCount).map (subarray bytes m)).flatten = bytes := by
  rw [flatten_subarrays]
  refine List.take_of_length_le (Nat.le_of_not_lt fun hlt => ?_)
  have hless := (lt_ceilDiv_iff h.positive).mpr hlt
  rw [h.chunkCount] at hless
  exact Nat.lt_irrefl _ hless

theorem canonicalBase64_toList (bytes : Bytes) :
    (canonicalBase64 bytes).toList = Base64.encode bytes := String.toList_ofList

theorem decodeCanonicalBase64_ok {value : String} {raw : Bytes} :
    decodeCanonicalBase64 value = .ok raw ↔ canonicalBase64 raw = value := by
  unfold decodeCanonicalBase64
  constructor
  · intro h
    split at h
    · rename_i decoded hdecode
      cases h
      rw [canonicalBase64, Base64.encode_of_decode hdecode, String.ofList_toList]
    · cases h
  · intro h
    rw [← h, canonicalBase64_toList, Base64.decode_encode]

end SurfaceLoom.Clipboard.Protocol
