import Memcached.Protocol

set_option autoImplicit false

/-!
# The single-path validator and the executor's slicing

`subdoc_validator<CMD>` checks the fixed header and the sub-document extras of a
single-path request before `subdoc_executor<CMD>` slices the body into key,
path and value. The value length is computed in `uint32_t` in both places, so
it wraps when the key, extras and path together exceed the declared body. For an opcode
without a value an accepted header is always sliced inside its body
(`slices_partitionBody_of_accepted`); for one with a value the validator accepts a header
whose wrapped value length runs past it (`overrunHeader`).
-/

namespace Memcached.SubdocValidator
open Memcached.Protocol

/-- The request fields the validator and the executor read, after `ntohs`/`ntohl`. -/
structure SubdocRequestHeader where
  magic : UInt8
  keylen : UInt16
  extlen : UInt8
  datatype : UInt8
  bodylen : UInt32
  pathlen : UInt16
  subdocFlags : UInt8
  deriving DecidableEq, Repr

/-- `sizeof(uint16_t) + sizeof(uint8_t)`: the extras are `pathlen` and `subdoc_flags`. -/
def subdocExtrasLength : UInt8 := 3

/-- `bodylen - keylen - extlen - pathlen`, evaluated in `uint32_t`. -/
def SubdocRequestHeader.valuelen (h : SubdocRequestHeader) : UInt32 :=
  h.bodylen - h.keylen.toUInt32 - h.extlen.toUInt32 - h.pathlen.toUInt32

def subdocValidator (traits : CmdTraits) (h : SubdocRequestHeader) : Int :=
  if h.magic != protocolBinaryReq || h.keylen == 0 || h.extlen != subdocExtrasLength ||
      decide (subdocPathMaxLength < h.pathlen.toNat) || h.datatype != protocolBinaryRawBytes then -1
  else if (if traits.requestHasValue then h.valuelen == 0 else h.valuelen != 0) then -1
  else if flagsOutside h.subdocFlags traits.validFlags then -1
  else if !traits.allowEmptyPath && h.pathlen == 0 then -1
  else 0

section Opcodes
variable (cmdTraits : UInt8 → CmdTraits)

def subdocGetValidator := subdocValidator (cmdTraits protocolBinaryCmdSubdocGet)
def subdocExistsValidator := subdocValidator (cmdTraits protocolBinaryCmdSubdocExists)
def subdocDictAddValidator := subdocValidator (cmdTraits protocolBinaryCmdSubdocDictAdd)
def subdocDictUpsertValidator := subdocValidator (cmdTraits protocolBinaryCmdSubdocDictUpsert)
def subdocDeleteValidator := subdocValidator (cmdTraits protocolBinaryCmdSubdocDelete)
def subdocReplaceValidator := subdocValidator (cmdTraits protocolBinaryCmdSubdocReplace)
def subdocArrayPushLastValidator := subdocValidator (cmdTraits protocolBinaryCmdSubdocArrayPushLast)
def subdocArrayPushFirstValidator :=
  subdocValidator (cmdTraits protocolBinaryCmdSubdocArrayPushFirst)
def subdocArrayInsertValidator := subdocValidator (cmdTraits protocolBinaryCmdSubdocArrayInsert)
def subdocArrayAddUniqueValidator :=
  subdocValidator (cmdTraits protocolBinaryCmdSubdocArrayAddUnique)
def subdocCounterValidator := subdocValidator (cmdTraits protocolBinaryCmdSubdocCounter)

end Opcodes

/-- Where `subdoc_executor<CMD>` finds each part of the request, as offsets from
the start of the packet: `key = packet + sizeof(*header) + extlen`,
`path = key + keylen`, `value = path + pathlen`, and the value length is
`bodylen - keylen - extlen - pathlen` in `uint32_t`. -/
structure Slices where
  keyOffset : Nat
  keylen : Nat
  pathOffset : Nat
  pathlen : Nat
  valueOffset : Nat
  vallen : Nat
  deriving DecidableEq, Repr

def subdocExecutorSlices (h : SubdocRequestHeader) : Slices :=
  let key := headerSize + h.extlen.toNat
  { keyOffset := key, keylen := h.keylen.toNat,
    pathOffset := key + h.keylen.toNat, pathlen := h.pathlen.toNat,
    valueOffset := key + h.keylen.toNat + h.pathlen.toNat, vallen := h.valuelen.toNat }

/-- The extras, key, path and value are consecutive, start at the body and end
exactly at its declared end. -/
def Slices.PartitionBody (s : Slices) (h : SubdocRequestHeader) : Prop :=
  s.keyOffset = headerSize + h.extlen.toNat ∧ s.pathOffset = s.keyOffset + s.keylen ∧
    s.valueOffset = s.pathOffset + s.pathlen ∧
    s.valueOffset + s.vallen = headerSize + h.bodylen.toNat

/-! ## The value length -/

theorem uint32_toNat_sub (a b : UInt32) :
    (a - b).toNat = (a.toNat + (4294967296 - b.toNat)) % 4294967296 := by
  show (a.toBitVec - b.toBitVec).toNat = _
  rw [BitVec.toNat_sub]; simp only [UInt32.toNat]; omega

/-- The three subtractions wrap once, together: the value length is the body
length minus key, extras and path, modulo `2^32`. -/
theorem valuelen_toNat (h : SubdocRequestHeader) :
    h.valuelen.toNat =
      (h.bodylen.toNat + 4294967296 - (h.keylen.toNat + h.extlen.toNat + h.pathlen.toNat)) %
        4294967296 := by
  have := h.bodylen.toBitVec.isLt; have := h.keylen.toBitVec.isLt
  have := h.extlen.toBitVec.isLt; have := h.pathlen.toBitVec.isLt
  simp only [SubdocRequestHeader.valuelen, uint32_toNat_sub]
  show (((_ + (4294967296 - h.keylen.toNat)) % 4294967296 + (4294967296 - h.extlen.toNat)) %
    4294967296 + (4294967296 - h.pathlen.toNat)) % 4294967296 = _
  simp only [UInt32.toNat, UInt16.toNat, UInt8.toNat] at *
  omega

theorem uint_bounds (h : SubdocRequestHeader) :
    h.bodylen.toNat < 4294967296 ∧ h.keylen.toNat < 65536 ∧ h.extlen.toNat < 256 ∧
      h.pathlen.toNat < 65536 :=
  ⟨h.bodylen.toBitVec.isLt, h.keylen.toBitVec.isLt, h.extlen.toBitVec.isLt,
    h.pathlen.toBitVec.isLt⟩

theorem valuelen_eq_zero_iff (h : SubdocRequestHeader) :
    h.valuelen = 0 ↔ h.keylen.toNat + h.extlen.toNat + h.pathlen.toNat = h.bodylen.toNat := by
  have hb := uint_bounds h
  have hv := valuelen_toNat h
  have hz : h.valuelen = 0 ↔ h.valuelen.toNat = 0 :=
    ⟨fun e => by rw [e]; rfl, fun e => UInt32.toNat.inj e⟩
  rw [hz]
  omega

/-! ## What the validator accepts -/

theorem ite_neg_one_eq_zero (c : Prop) [Decidable c] (x : Int) :
    (if c then -1 else x) = 0 ↔ ¬c ∧ x = 0 := by
  split <;> simp_all

theorem flagsOutside_zero (validFlags : UInt8) : flagsOutside 0 validFlags = false := by
  have : (0 : UInt8) &&& ~~~validFlags = 0 := UInt8.eq_of_toBitVec_eq BitVec.zero_and
  simp [flagsOutside, this]

/-- The validator accepts exactly the headers that pass the static checks, the
trait checks on flags and path, and whose `uint32_t` value length is non-zero
exactly when the opcode carries a value. -/
theorem subdocValidator_eq_zero_iff (traits : CmdTraits) (h : SubdocRequestHeader) :
    subdocValidator traits h = 0 ↔
      h.magic = protocolBinaryReq ∧ h.keylen ≠ 0 ∧ h.extlen = subdocExtrasLength ∧
      h.pathlen.toNat ≤ subdocPathMaxLength ∧ h.datatype = protocolBinaryRawBytes ∧
      (h.valuelen ≠ 0 ↔ traits.requestHasValue = true) ∧
      flagsOutside h.subdocFlags traits.validFlags = false ∧
      (traits.allowEmptyPath = false → h.pathlen ≠ 0) := by
  unfold subdocValidator
  cases traits.requestHasValue <;> cases traits.allowEmptyPath <;>
    by_cases hv : h.valuelen = 0 <;> simp [ite_neg_one_eq_zero, hv, not_or, and_assoc]

/-- The executor's slices partition the declared body exactly when key, extras
and path fit in it; otherwise the value length has wrapped. -/
theorem slices_partitionBody_iff (h : SubdocRequestHeader) :
    (subdocExecutorSlices h).PartitionBody h ↔
      h.keylen.toNat + h.extlen.toNat + h.pathlen.toNat ≤ h.bodylen.toNat := by
  have hb := uint_bounds h
  have hv := valuelen_toNat h
  simp only [Slices.PartitionBody, subdocExecutorSlices, true_and]
  omega

/-- For an opcode without a value, every accepted header is sliced inside its body. -/
theorem slices_partitionBody_of_accepted (traits : CmdTraits) (h : SubdocRequestHeader)
    (hnv : traits.requestHasValue = false) (hacc : subdocValidator traits h = 0) :
    (subdocExecutorSlices h).PartitionBody h := by
  have hz : h.valuelen = 0 := by
    by_contra hne
    simp only [subdocValidator_eq_zero_iff, hnv] at hacc
    exact absurd (hacc.2.2.2.2.2.1.mp hne) (by simp)
  rw [slices_partitionBody_iff, ← (valuelen_eq_zero_iff h).mp hz]

/-- A request of zero body length that still declares a one-byte key, the three
bytes of extras and a one-byte path. -/
def overrunHeader : SubdocRequestHeader :=
  { magic := protocolBinaryReq, keylen := 1, extlen := subdocExtrasLength,
    datatype := protocolBinaryRawBytes, bodylen := 0, pathlen := 1, subdocFlags := 0 }

/-- For an opcode that carries a value, the validator accepts `overrunHeader`:
the wrapped value length is non-zero. The executor then slices a value of
`2^32 - 5` bytes that starts past the end of the declared body. -/
theorem subdocValidator_accepts_overrun (traits : CmdTraits)
    (hv : traits.requestHasValue = true) :
    subdocValidator traits overrunHeader = 0 ∧
      (subdocExecutorSlices overrunHeader).vallen = 4294967291 ∧
      ¬ (subdocExecutorSlices overrunHeader).PartitionBody overrunHeader := by
  refine ⟨?_, rfl, ?_⟩
  · rw [subdocValidator_eq_zero_iff, hv]
    exact ⟨rfl, by decide, rfl, by decide, rfl, iff_of_true (by decide) rfl,
      flagsOutside_zero _, fun _ => by decide⟩
  · rw [slices_partitionBody_iff]; decide

/-- The traits of `PROTOCOL_BINARY_CMD_SUBDOC_DICT_ADD`: a mutator with a value
and the `MKDIR_P` flag. -/
def dictAddTraits : CmdTraits :=
  { isMutator := true, requestHasValue := true, responseHasValue := false,
    allowEmptyPath := false, validFlags := subdocFlagMkdirP, optype := 0 }

theorem subdocValidator_accepts_overrun_dictAdd :
    dictAddTraits.requestHasValue = true ∧ subdocValidator dictAddTraits overrunHeader = 0 ∧
      (subdocExecutorSlices overrunHeader).vallen = 4294967291 ∧
      ¬ (subdocExecutorSlices overrunHeader).PartitionBody overrunHeader :=
  ⟨rfl, subdocValidator_accepts_overrun dictAddTraits rfl⟩

end Memcached.SubdocValidator
