import Memcached.Protocol

set_option autoImplicit false

/-!
# The multi-lookup validator

`subdoc_multi_lookup_validator` reads the packet in place: the header fields
through loads in the host's byte order, then one lookup spec after another
from the end of the key. The packet is the memory `mem` from its first byte;
what lies past the declared body is whatever the memory holds there.

The minimum-length test compares the `bodylen` field as loaded, without
`ntohl`; the spec loop and the final comparison use the converted value.
-/

namespace Memcached.MultiLookupValidator
open Memcached.Protocol

/-- The bytes `mem off, ..., mem (off + n - 1)`. -/
def bytesAt (mem : Nat → UInt8) (off : Nat) : Nat → Bytes
  | 0 => []
  | n + 1 => mem off :: bytesAt mem (off + 1) n

/-- `sizeof(protocol_binary_subdoc_multi_lookup_spec) + 1`. -/
def minimumBodyLen : Nat := multiLookupSpecSize + 1

section Validator
variable (cmdTraits : UInt8 → CmdTraits) (order : ByteOrder) (mem : Nat → UInt8)

/-- The per-command check of step 2b: the flags must be valid for the spec's opcode. -/
def specFlagsValid (opcode flags : UInt8) : Bool :=
  if opcode = protocolBinaryCmdSubdocGet then
    !flagsOutside flags (cmdTraits protocolBinaryCmdSubdocGet).validFlags
  else if opcode = protocolBinaryCmdSubdocExists then
    !flagsOutside flags (cmdTraits protocolBinaryCmdSubdocExists).validFlags
  else false

/-- The `for` loop over the lookup specs, `fuel` iterations from `path_index`
and `body_validated`. `none` is a `return -1` from inside the loop; otherwise
the loop's final `path_index` and `body_validated`. -/
def specLoop (bodylen : Nat) : Nat → Nat → Nat → Option (Nat × Nat)
  | 0, pathIndex, bodyValidated => some (pathIndex, bodyValidated)
  | fuel + 1, pathIndex, bodyValidated =>
    if bodyValidated < bodylen then
      let spec := headerSize + bodyValidated
      let opcode := mem spec
      let pathlen := htons order (load16 order mem (spec + 2))
      if (opcode != protocolBinaryCmdSubdocGet && opcode != protocolBinaryCmdSubdocExists) ||
          pathlen == 0 || decide (subdocPathMaxLength < pathlen) then none
      else if !specFlagsValid cmdTraits opcode (mem (spec + 1)) then none
      else specLoop bodylen fuel (pathIndex + 1) (bodyValidated + (multiLookupSpecSize + pathlen))
    else some (pathIndex, bodyValidated)

def subdocMultiLookupValidator : Int :=
  if mem 0 != protocolBinaryReq || load16 order mem 2 == 0 || mem 4 != 0 ||
      decide (load32 order mem 8 < minimumBodyLen) || mem 5 != protocolBinaryRawBytes then -1
  else
    let keylen := ntohs order (load16 order mem 2)
    let bodylen := ntohl order (load32 order mem 8)
    match specLoop cmdTraits order mem bodylen protocolBinarySubdocMultiMaxPaths 0 keylen with
    | none => -1
    | some (pathIndex, bodyValidated) =>
      if 0 < pathIndex && pathIndex ≤ protocolBinarySubdocMultiMaxPaths && bodyValidated == bodylen
      then 0 else -1

end Validator

/-! ## The wire format of a lookup spec -/

/-- One lookup spec: `opcode(u8) | flags(u8) | pathlen(u16, big-endian) | path`. -/
structure LookupSpec where
  opcode : UInt8
  flags : UInt8
  path : Bytes
  deriving DecidableEq, Repr

def LookupSpec.encode (s : LookupSpec) : Bytes :=
  [s.opcode, s.flags, UInt8.ofNat (s.path.length / 256), UInt8.ofNat (s.path.length % 256)] ++ s.path

/-- A spec the validator admits: a lookup opcode, flags valid for it, and a path
of 1 to `SUBDOC_PATH_MAX_LENGTH` bytes. -/
def LookupSpec.WellFormed (cmdTraits : UInt8 → CmdTraits) (s : LookupSpec) : Prop :=
  specFlagsValid cmdTraits s.opcode s.flags = true ∧ 1 ≤ s.path.length ∧
    s.path.length ≤ subdocPathMaxLength

/-- A multi-lookup request as the protocol defines it: the header fields in
network order, then a body made of the key and 1 to 16 well-formed specs,
with nothing after the last one. -/
def WellFormedRequest (cmdTraits : UInt8 → CmdTraits) (mem : Nat → UInt8) : Prop :=
  let keylen := load16 .big mem 2
  let bodylen := load32 .big mem 8
  mem 0 = protocolBinaryReq ∧ 1 ≤ keylen ∧ mem 4 = 0 ∧ mem 5 = protocolBinaryRawBytes ∧
    keylen ≤ bodylen ∧
    ∃ specs : List LookupSpec, 1 ≤ specs.length ∧
      specs.length ≤ protocolBinarySubdocMultiMaxPaths ∧
      (∀ s ∈ specs, s.WellFormed cmdTraits) ∧
      bytesAt mem (headerSize + keylen) (bodylen - keylen) = (specs.map LookupSpec.encode).flatten

/-! ## Bytes in memory -/

@[simp] theorem length_bytesAt (mem : Nat → UInt8) (off n : Nat) :
    (bytesAt mem off n).length = n := by
  induction n generalizing off with
  | zero => rfl
  | succ n ih => simp [bytesAt, ih]

theorem bytesAt_add (mem : Nat → UInt8) (off a b : Nat) :
    bytesAt mem off (a + b) = bytesAt mem off a ++ bytesAt mem (off + a) b := by
  induction a generalizing off with
  | zero => simp [bytesAt]
  | succ a ih =>
    rw [Nat.add_right_comm, bytesAt, ih, bytesAt, Nat.add_assoc, Nat.add_comm 1 a]; rfl

theorem bytesAt_congr {mem mem' : Nat → UInt8} {off n : Nat}
    (h : ∀ i, off ≤ i → i < off + n → mem i = mem' i) : bytesAt mem off n = bytesAt mem' off n := by
  induction n generalizing off with
  | zero => rfl
  | succ n ih =>
    simp only [bytesAt]
    rw [h off le_rfl (by omega), ih fun i h1 h2 => h i (by omega) (by omega)]

theorem uint8_ofNat_toNat (b : UInt8) : UInt8.ofNat b.toNat = b :=
  UInt8.toNat.inj (UInt8.toNat_ofNat_of_lt (byte_lt b))

/-! ## Decoding one spec -/

/-- The spec whose header starts at address `p`, its path length read big-endian. -/
def decodeSpec (mem : Nat → UInt8) (p : Nat) : LookupSpec :=
  ⟨mem p, mem (p + 1), bytesAt mem (p + 4) (load16 .big mem (p + 2))⟩

theorem length_encode (s : LookupSpec) : s.encode.length = multiLookupSpecSize + s.path.length := by
  simp [LookupSpec.encode, multiLookupSpecSize]; omega

theorem encode_decodeSpec (mem : Nat → UInt8) (p : Nat) :
    (decodeSpec mem p).encode = bytesAt mem p (multiLookupSpecSize + load16 .big mem (p + 2)) := by
  have h2 := byte_lt (mem (p + 2)); have h3 := byte_lt (mem (p + 2 + 1))
  have hd : ((mem (p + 2)).toNat * 256 + (mem (p + 2 + 1)).toNat) / 256 = (mem (p + 2)).toNat := by
    omega
  have hm : ((mem (p + 2)).toNat * 256 + (mem (p + 2 + 1)).toNat) % 256 = (mem (p + 2 + 1)).toNat := by
    omega
  rw [bytesAt_add]
  simp only [decodeSpec, LookupSpec.encode, length_bytesAt, load16, hd, hm, uint8_ofNat_toNat]
  rfl

theorem decodeSpec_of_bytesAt (mem : Nat → UInt8) (p : Nat) (s : LookupSpec)
    (hlen : s.path.length < 65536) (h : bytesAt mem p s.encode.length = s.encode) :
    decodeSpec mem p = s := by
  rw [length_encode, bytesAt_add] at h
  obtain ⟨hh, hp⟩ := List.append_inj h (by simp [multiLookupSpecSize])
  simp only [multiLookupSpecSize, bytesAt, LookupSpec.encode, List.cons.injEq] at hh
  obtain ⟨ho, hf, hhi, hlo, -⟩ := hh
  change mem (p + 2) = _ at hhi
  change mem (p + 2 + 1) = _ at hlo
  have hl : load16 .big mem (p + 2) = s.path.length := by
    have h1 : (mem (p + 2)).toNat = s.path.length / 256 := by
      rw [hhi]; exact UInt8.toNat_ofNat_of_lt (by simp only [UInt8.size]; omega)
    have h2 : (mem (p + 2 + 1)).toNat = s.path.length % 256 := by
      rw [hlo]; exact UInt8.toNat_ofNat_of_lt (by simp only [UInt8.size]; omega)
    simp only [load16, h1, h2]
    omega
  obtain ⟨op, fl, path⟩ := s
  simp only [decodeSpec, hl, LookupSpec.mk.injEq]
  exact ⟨ho, hf, hp⟩

/-! ## The spec loop -/

section Loop
variable {cmdTraits : UInt8 → CmdTraits} {order : ByteOrder} {mem : Nat → UInt8}

/-- The body bytes from offset `pos` up to `stop` are the encodings of `specs`,
one after the other, each well formed. -/
def SplitsInto (cmdTraits : UInt8 → CmdTraits) (mem : Nat → UInt8) (pos stop : Nat)
    (specs : List LookupSpec) : Prop :=
  pos ≤ stop ∧ (∀ s ∈ specs, s.WellFormed cmdTraits) ∧
    bytesAt mem (headerSize + pos) (stop - pos) = (specs.map LookupSpec.encode).flatten

theorem splitsInto_nil {pos stop : Nat} : SplitsInto cmdTraits mem pos stop [] ↔ pos = stop := by
  constructor
  · rintro ⟨hle, -, hb⟩
    have := congrArg List.length hb
    simp only [length_bytesAt, List.map_nil, List.flatten_nil, List.length_nil] at this
    omega
  · rintro rfl; exact ⟨le_rfl, by simp, by simp [bytesAt]⟩

theorem splitsInto_cons {pos stop : Nat} {s : LookupSpec} {ss : List LookupSpec} :
    SplitsInto cmdTraits mem pos stop (s :: ss) ↔
      s.WellFormed cmdTraits ∧ bytesAt mem (headerSize + pos) s.encode.length = s.encode ∧
        SplitsInto cmdTraits mem (pos + s.encode.length) stop ss := by
  simp only [SplitsInto, List.mem_cons, forall_eq_or_imp, List.map_cons, List.flatten_cons]
  constructor
  · rintro ⟨hle, ⟨hw, hws⟩, hb⟩
    have hl := congrArg List.length hb
    simp only [length_bytesAt, List.length_append] at hl
    rw [show stop - pos = s.encode.length + (stop - (pos + s.encode.length)) by omega,
      bytesAt_add, Nat.add_assoc] at hb
    obtain ⟨h1, h2⟩ := List.append_inj hb (by simp)
    exact ⟨hw, h1, by omega, hws, h2⟩
  · rintro ⟨hw, h1, hle, hws, h2⟩
    refine ⟨by omega, ⟨hw, hws⟩, ?_⟩
    rw [show stop - pos = s.encode.length + (stop - (pos + s.encode.length)) by omega,
      bytesAt_add, Nat.add_assoc, h1, h2]

theorem specFlagsValid_opcode {op fl : UInt8} (h : specFlagsValid cmdTraits op fl = true) :
    op = protocolBinaryCmdSubdocGet ∨ op = protocolBinaryCmdSubdocExists := by
  unfold specFlagsValid at h
  split_ifs at h with h1 h2
  · exact .inl h1
  · exact .inr h2

theorem specLoop_succ_of_lt {bodylen fuel i pos : Nat} (h : pos < bodylen) :
    specLoop cmdTraits order mem bodylen (fuel + 1) i pos =
      if specFlagsValid cmdTraits (mem (headerSize + pos)) (mem (headerSize + pos + 1)) = true ∧
          1 ≤ load16 .big mem (headerSize + pos + 2) ∧
          load16 .big mem (headerSize + pos + 2) ≤ subdocPathMaxLength then
        specLoop cmdTraits order mem bodylen fuel (i + 1)
          (pos + (multiLookupSpecSize + load16 .big mem (headerSize + pos + 2)))
      else none := by
  rw [specLoop, if_pos h]
  simp only [htons, ntohs_load16]
  by_cases hv : specFlagsValid cmdTraits (mem (headerSize + pos)) (mem (headerSize + pos + 1)) = true
  · have hop : (mem (headerSize + pos) != protocolBinaryCmdSubdocGet &&
        mem (headerSize + pos) != protocolBinaryCmdSubdocExists) = false := by
      rcases specFlagsValid_opcode hv with hop | hop <;> rw [hop] <;> decide
    by_cases hc : 1 ≤ load16 .big mem (headerSize + pos + 2) ∧
        load16 .big mem (headerSize + pos + 2) ≤ subdocPathMaxLength
    · rw [if_neg (by simp only [hop]; simp; omega), if_neg (by simp [hv]), if_pos ⟨hv, hc⟩]
    · rw [if_pos (by simp only [hop]; simp; omega), if_neg (fun h => hc h.2)]
  · simp [Bool.eq_false_iff.mpr hv]

theorem specLoop_sound {bodylen : Nat} :
    ∀ {fuel i pos j : Nat}, specLoop cmdTraits order mem bodylen fuel i pos = some (j, bodylen) →
      ∃ specs : List LookupSpec, i + specs.length = j ∧ specs.length ≤ fuel ∧
        SplitsInto cmdTraits mem pos bodylen specs := by
  intro fuel
  induction fuel with
  | zero =>
    intro i pos j h
    simp only [specLoop, Option.some.injEq, Prod.mk.injEq] at h
    exact ⟨[], by simp [h.1], le_rfl, splitsInto_nil.mpr h.2⟩
  | succ fuel ih =>
    intro i pos j h
    by_cases hlt : pos < bodylen
    · rw [specLoop_succ_of_lt hlt] at h
      split_ifs at h with hc
      obtain ⟨specs, hj, hlen, hs⟩ := ih h
      refine ⟨decodeSpec mem (headerSize + pos) :: specs, by simp; omega, by simp; omega, ?_⟩
      rw [splitsInto_cons, encode_decodeSpec]
      exact ⟨⟨hc.1, by simpa [decodeSpec] using hc.2.1, by simpa [decodeSpec] using hc.2.2⟩,
        by rw [length_bytesAt], by rw [length_bytesAt]; exact hs⟩
    · simp only [specLoop, if_neg hlt, Option.some.injEq, Prod.mk.injEq] at h
      exact ⟨[], by simp [h.1], by simp, splitsInto_nil.mpr h.2⟩

theorem specLoop_complete {bodylen : Nat} :
    ∀ (specs : List LookupSpec) {fuel i pos : Nat}, SplitsInto cmdTraits mem pos bodylen specs →
      specs.length ≤ fuel →
      specLoop cmdTraits order mem bodylen fuel i pos = some (i + specs.length, bodylen) := by
  intro specs
  induction specs with
  | nil =>
    intro fuel i pos h _
    rw [splitsInto_nil.mp h]
    cases fuel <;> simp [specLoop]
  | cons s ss ih =>
    intro fuel i pos h hf
    obtain ⟨hw, hb, hrest⟩ := splitsInto_cons.mp h
    obtain ⟨fuel, rfl⟩ : ∃ f, fuel = f + 1 := ⟨fuel - 1, by simp at hf; omega⟩
    have hlen : s.encode.length = multiLookupSpecSize + s.path.length := length_encode s
    have hd := decodeSpec_of_bytesAt mem _ s (by have := hw.2.2; simp [subdocPathMaxLength] at this; omega) hb
    have hlt : pos < bodylen := by have := hrest.1; simp [multiLookupSpecSize] at hlen; omega
    have hpl : load16 .big mem (headerSize + pos + 2) = s.path.length := by
      rw [← hd]; simp [decodeSpec]
    rw [specLoop_succ_of_lt hlt, if_pos, ih (by rw [hpl, ← hlen]; exact hrest) (by simpa using hf)]
    · simp [Nat.add_assoc, Nat.add_comm 1]
    · rw [hpl]
      have hop : mem (headerSize + pos) = s.opcode := by rw [← hd]; rfl
      have hfl : mem (headerSize + pos + 1) = s.flags := by rw [← hd]; rfl
      exact ⟨by rw [hop, hfl]; exact hw.1, hw.2⟩

theorem length_flatten_encode {specs : List LookupSpec}
    (hw : ∀ s ∈ specs, s.WellFormed cmdTraits) :
    5 * specs.length ≤ (specs.map LookupSpec.encode).flatten.length ∧
      (specs.map LookupSpec.encode).flatten.length ≤ 1028 * specs.length := by
  induction specs with
  | nil => simp
  | cons s ss ih =>
    have hs := hw s (by simp)
    have := ih (fun t ht => hw t (by simp [ht]))
    simp only [LookupSpec.WellFormed, subdocPathMaxLength] at hs
    simp only [List.map_cons, List.flatten_cons, List.length_append, length_encode,
      multiLookupSpecSize, List.length_cons]
    omega

end Loop

/-! ## The verdict -/

/-- The raw `bodylen` is below the minimum only if the declared length is below
it too, or is at least `2^24`: the little-endian load puts the low byte of the
declared length at the top. -/
theorem load32_lt_minimumBodyLen (order : ByteOrder) (mem : Nat → UInt8) (off : Nat)
    (h : load32 order mem off < minimumBodyLen) :
    load32 .big mem off < minimumBodyLen ∨ 16777216 ≤ load32 .big mem off := by
  cases order with
  | big => exact .inl h
  | little =>
    have := byte_lt (mem off); have := byte_lt (mem (off + 1))
    have := byte_lt (mem (off + 2)); have := byte_lt (mem (off + 2 + 1))
    simp only [load32, load16, minimumBodyLen, multiLookupSpecSize] at *
    have h1 : (mem (off + 1)).toNat = 0 := by omega
    have h2 : (mem (off + 2)).toNat = 0 := by omega
    have h3 : (mem (off + 2 + 1)).toNat = 0 := by omega
    rw [h1, h2, h3]
    omega

theorem subdocMultiLookupValidator_eq_zero_iff (cmdTraits : UInt8 → CmdTraits)
    (order : ByteOrder) (mem : Nat → UInt8) :
    subdocMultiLookupValidator cmdTraits order mem = 0 ↔ WellFormedRequest cmdTraits mem := by
  have hk0 := load16_eq_zero order mem 2
  have hklt := load16_lt .big mem 2
  unfold subdocMultiLookupValidator WellFormedRequest
  simp only [ntohs_load16, ntohl_load32]
  constructor
  · intro h
    split_ifs at h with hhdr
    simp only [Bool.or_eq_true, bne_iff_ne, ne_eq, beq_iff_eq, decide_eq_true_eq, not_or,
      not_not] at hhdr
    obtain ⟨⟨⟨⟨h0, hk⟩, h4⟩, -⟩, h5⟩ := hhdr
    split at h
    · exact absurd h (by decide)
    · rename_i pathIndex bodyValidated hloop
      split_ifs at h with hfin
      simp only [Bool.and_eq_true, decide_eq_true_eq, beq_iff_eq] at hfin
      obtain ⟨⟨hpos, hmax⟩, rfl⟩ := hfin
      obtain ⟨specs, hj, -, hs⟩ := specLoop_sound hloop
      exact ⟨h0, by omega, h4, h5, hs.1, specs, by omega, by omega, hs.2.1, hs.2.2⟩
  · rintro ⟨h0, hk, h4, h5, hkb, specs, hmin, hmax, hw, hb⟩
    have hs : SplitsInto cmdTraits mem (load16 .big mem 2) (load32 .big mem 8) specs := ⟨hkb, hw, hb⟩
    have hlen := congrArg List.length hb
    have hbound := length_flatten_encode hw
    rw [length_bytesAt] at hlen
    have hraw : ¬ load32 order mem 8 < minimumBodyLen := by
      intro hlt
      have := load32_lt_minimumBodyLen order mem 8 hlt
      simp only [minimumBodyLen, multiLookupSpecSize, protocolBinarySubdocMultiMaxPaths] at this hmax
      omega
    rw [if_neg (by simp [h0, h4, h5, hraw]; omega),
      specLoop_complete specs hs hmax]
    simp only [Nat.zero_add]
    rw [if_pos (by simp; omega)]

theorem subdocMultiLookupValidator_eq_neg_one_of_ne (cmdTraits : UInt8 → CmdTraits)
    (order : ByteOrder) (mem : Nat → UInt8) (h : subdocMultiLookupValidator cmdTraits order mem ≠ 0) :
    subdocMultiLookupValidator cmdTraits order mem = -1 := by
  revert h
  unfold subdocMultiLookupValidator
  split_ifs
  · simp
  · dsimp only
    split
    · simp
    · split_ifs <;> simp

/-- Two packets, seen on hosts of any byte orders, get the same verdict when
they are equally well formed. -/
theorem subdocMultiLookupValidator_congr (cmdTraits : UInt8 → CmdTraits) {o o' : ByteOrder}
    {m m' : Nat → UInt8} (h : WellFormedRequest cmdTraits m' ↔ WellFormedRequest cmdTraits m) :
    subdocMultiLookupValidator cmdTraits o' m' = subdocMultiLookupValidator cmdTraits o m := by
  by_cases hw : WellFormedRequest cmdTraits m
  · rw [(subdocMultiLookupValidator_eq_zero_iff cmdTraits o m).mpr hw,
      (subdocMultiLookupValidator_eq_zero_iff cmdTraits o' m').mpr (h.mpr hw)]
  · rw [subdocMultiLookupValidator_eq_neg_one_of_ne cmdTraits o m
        (mt (subdocMultiLookupValidator_eq_zero_iff cmdTraits o m).mp hw),
      subdocMultiLookupValidator_eq_neg_one_of_ne cmdTraits o' m'
        (mt (subdocMultiLookupValidator_eq_zero_iff cmdTraits o' m').mp (mt h.mp hw))]

theorem wellFormedRequest_congr (cmdTraits : UInt8 → CmdTraits) {mem mem' : Nat → UInt8}
    (h : ∀ i < headerSize + load32 .big mem 8, mem' i = mem i) :
    WellFormedRequest cmdTraits mem' ↔ WellFormedRequest cmdTraits mem := by
  have hh : ∀ i < headerSize, mem' i = mem i := fun i hi => h i (by omega)
  have hk : load16 .big mem' 2 = load16 .big mem 2 := by
    simp only [load16, hh 2 (by decide), hh 3 (by decide)]
  have hb : load32 .big mem' 8 = load32 .big mem 8 := by
    simp only [load32, load16, hh 8 (by decide), hh 9 (by decide), hh 10 (by decide),
      hh 11 (by decide)]
  unfold WellFormedRequest
  simp only [hk, hb, hh 0 (by decide), hh 4 (by decide), hh 5 (by decide)]
  refine and_congr_right fun _ => and_congr_right fun _ => and_congr_right fun _ =>
    and_congr_right fun _ => and_congr_right fun hkb => ?_
  rw [bytesAt_congr fun i h1 h2 => h i (by omega)]

/-- The multi-lookup validator accepts a request iff it is well formed, on a
host of either byte order; its verdict never reads past the declared body, and
the raw comparison of `bodylen` with `minimum_body_len` never changes it. -/
theorem subdocMultiLookupValidator_spec (cmdTraits : UInt8 → CmdTraits) (order : ByteOrder)
    (mem : Nat → UInt8) :
    (subdocMultiLookupValidator cmdTraits order mem = 0 ↔ WellFormedRequest cmdTraits mem) ∧
      (∀ mem' : Nat → UInt8, (∀ i < headerSize + load32 .big mem 8, mem' i = mem i) →
        subdocMultiLookupValidator cmdTraits order mem' =
          subdocMultiLookupValidator cmdTraits order mem) ∧
      subdocMultiLookupValidator cmdTraits order mem =
        subdocMultiLookupValidator cmdTraits .big mem :=
  ⟨subdocMultiLookupValidator_eq_zero_iff cmdTraits order mem,
    fun _ h => subdocMultiLookupValidator_congr cmdTraits (wellFormedRequest_congr cmdTraits h),
    subdocMultiLookupValidator_congr cmdTraits Iff.rfl⟩

end Memcached.MultiLookupValidator
