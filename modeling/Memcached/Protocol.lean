import Mathlib.Data.List.Basic

set_option autoImplicit false

/-!
# The binary protocol as the sub-document core sees it

Constants, status codes and the per-opcode traits record that the validators and
the executor of `subdocument.cc` and `subdocument_validators.cc` read. The
headers that declare them (`protocol_binary.h`, `memcached/types.h`,
`subdocument_traits.h`) are not part of the sources modelled here: constants
take their protocol values, and the traits table is a parameter of every
definition that reads it.
-/

namespace Memcached.Protocol

abbrev Bytes := List UInt8

def protocolBinaryReq : UInt8 := 0x80

def protocolBinaryRawBytes : UInt8 := 0x00
def protocolBinaryDatatypeJson : UInt8 := 0x01
def protocolBinaryDatatypeCompressed : UInt8 := 0x02
def protocolBinaryDatatypeCompressedJson : UInt8 := 0x03

def protocolBinaryCmdSubdocGet : UInt8 := 0xc5
def protocolBinaryCmdSubdocExists : UInt8 := 0xc6
def protocolBinaryCmdSubdocDictAdd : UInt8 := 0xc7
def protocolBinaryCmdSubdocDictUpsert : UInt8 := 0xc8
def protocolBinaryCmdSubdocDelete : UInt8 := 0xc9
def protocolBinaryCmdSubdocReplace : UInt8 := 0xca
def protocolBinaryCmdSubdocArrayPushLast : UInt8 := 0xcb
def protocolBinaryCmdSubdocArrayPushFirst : UInt8 := 0xcc
def protocolBinaryCmdSubdocArrayInsert : UInt8 := 0xcd
def protocolBinaryCmdSubdocArrayAddUnique : UInt8 := 0xce
def protocolBinaryCmdSubdocCounter : UInt8 := 0xcf

def subdocPathMaxLength : Nat := 1024
def protocolBinarySubdocMultiMaxPaths : Nat := 16
def subdocFlagMkdirP : UInt8 := 0x01

/-- Size of the fixed request header, and of one multi-lookup spec header
(`opcode`, `flags`, `pathlen`). -/
def headerSize : Nat := 24
def multiLookupSpecSize : Nat := 4

/-- `ENGINE_ERROR_CODE`. -/
inductive EngineErrorCode
  | success | keyEnoent | keyEexists | enomem | notStored | einval | enotsup
  | ewouldblock | e2big | wantMore | disconnect | eaccess | notMyVbucket | tmpfail
  | erange | rollback | noBucket | ebusy | authStale | failed
  deriving DecidableEq, Repr, Inhabited

/-- `protocol_binary_response_status`. -/
inductive ProtocolStatus
  | success | keyEnoent | keyEexists | e2big | einval | notStored | deltaBadval
  | notMyVbucket | noBucket | authError | authContinue | erange | rollback | eaccess
  | notInitialized | unknownCommand | enomem | notSupported | einternal | ebusy | etmpfail
  | subdocPathEnoent | subdocPathMismatch | subdocPathEinval | subdocPathE2big
  | subdocDocE2deep | subdocValueCantinsert | subdocDocNotjson | subdocNumErange
  | subdocDeltaErange | subdocPathEexists | subdocValueEtoodeep
  deriving DecidableEq, Repr

/-- `cmd_traits<Cmd2Type<CMD>>`: what the template code reads of an opcode. -/
structure CmdTraits where
  isMutator : Bool
  requestHasValue : Bool
  responseHasValue : Bool
  allowEmptyPath : Bool
  validFlags : UInt8
  optype : Nat
  deriving DecidableEq, Repr

/-- The flag test `(flags & ~valid_flags) != 0` of both validators. -/
def flagsOutside (flags validFlags : UInt8) : Bool := (flags &&& ~~~validFlags) != 0

/-! Byte order. A load reads the bytes in the host's order; `ntohs`, `ntohl`
and `htons` swap them on a little-endian host and do nothing on a big-endian one. -/

inductive ByteOrder
  | little | big
  deriving DecidableEq, Repr

def load16 : ByteOrder → (Nat → UInt8) → Nat → Nat
  | .big, mem, off => (mem off).toNat * 256 + (mem (off + 1)).toNat
  | .little, mem, off => (mem off).toNat + (mem (off + 1)).toNat * 256

def load32 (order : ByteOrder) (mem : Nat → UInt8) (off : Nat) : Nat :=
  match order with
  | .big => load16 .big mem off * 65536 + load16 .big mem (off + 2)
  | .little => load16 .little mem off + load16 .little mem (off + 2) * 65536

def ntohs : ByteOrder → Nat → Nat
  | .big, x => x
  | .little, x => x % 256 * 256 + x / 256

def htons : ByteOrder → Nat → Nat := ntohs

def ntohl : ByteOrder → Nat → Nat
  | .big, x => x
  | .little, x => ntohs .little (x % 65536) * 65536 + ntohs .little (x / 65536)

theorem byte_lt (b : UInt8) : b.toNat < 256 := b.toBitVec.isLt

theorem ntohs_load16 (order : ByteOrder) (mem : Nat → UInt8) (off : Nat) :
    ntohs order (load16 order mem off) = load16 .big mem off := by
  have := byte_lt (mem off); have := byte_lt (mem (off + 1))
  cases order <;> simp only [ntohs, load16]; omega

theorem load16_lt (order : ByteOrder) (mem : Nat → UInt8) (off : Nat) :
    load16 order mem off < 65536 := by
  have := byte_lt (mem off); have := byte_lt (mem (off + 1))
  cases order <;> simp only [load16] <;> omega

theorem ntohl_load32 (order : ByteOrder) (mem : Nat → UInt8) (off : Nat) :
    ntohl order (load32 order mem off) = load32 .big mem off := by
  have := byte_lt (mem off); have := byte_lt (mem (off + 1))
  have := byte_lt (mem (off + 2)); have := byte_lt (mem (off + 2 + 1))
  cases order
  · simp only [ntohl, load32, ntohs, load16]; omega
  · rfl

theorem load16_eq_zero (order : ByteOrder) (mem : Nat → UInt8) (off : Nat) :
    load16 order mem off = 0 ↔ load16 .big mem off = 0 := by
  cases order <;> simp only [load16]; omega

end Memcached.Protocol
