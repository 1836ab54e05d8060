import CodeListing.Proofs.InstructionStream
import CodeListing.Stub.Template
import Mathlib.Algebra.Group.Int.Defs
import Mathlib.Algebra.Group.Nat.Defs
import Mathlib.Data.List.Forall2

/-!
# The code of stubs refers to the slots of stubs

The templates write the distance to a slot into the code of a stub, cut to 32 bits on x64 and to the
19 bits of a multiple of four on Arm64.  A decoder that reads the code at the address of a stub
extends this distance and adds it to an address inside the stub.  While the stride is in reach of
the field, both agree, for every address, on which slot an instruction refers to
(`stubTemplates_spell_uses`).
-/

set_option autoImplicit false

namespace CodeListing

open Isa

/-! ## Distances -/

/-- The four least bytes of a word denote its lower half. -/
theorem littleEndian_leastBytes (word : UInt64) :
    littleEndian (leastBytes word 4) = word.toNat % 2 ^ 32 := by
  simp only [littleEndian, leastBytes, List.range, List.range.loop, List.map_cons, List.map_nil,
    List.foldr_cons, List.foldr_nil, UInt8.toNat_ofNat', Nat.shiftRight_eq_div_pow]
  omega

/-- The word of an integer is its remainder. -/
theorem toNat_wordOfInt (n : Int) : (wordOfInt n).toNat = (n % 2 ^ 64).toNat := by
  have hlt : (n % 2 ^ 64).toNat < 2 ^ 64 := by omega
  show (UInt64.ofNat (n % 2 ^ 64).toNat).toNat = _
  rw [UInt64.toNat_ofNat', Nat.mod_eq_of_lt hlt]

/-- A distance that fits a signed number of 32 bits survives being cut and extended. -/
theorem signExtend_leastBytes {distance : UInt64}
    (h : distance.toNat < 2 ^ 31 ∨ 2 ^ 64 - 2 ^ 31 ≤ distance.toNat) :
    signExtend 32 (littleEndian (leastBytes distance 4)) = distance := by
  have hlt := distance.toNat_lt
  apply UInt64.toNat_inj.1
  rw [littleEndian_leastBytes, signExtend, toNat_wordOfInt, signedOfBits]
  simp only [Nat.one_shiftLeft, Int.ofNat_eq_natCast]
  split
  · omega
  · omega

/-! ## What the instructions of a stub do -/

/-- What an instruction does with the data of its stub. -/
inductive SlotUse where
  /-- It loads the register with this name from the slot. -/
  | load (register : String) (slot : UInt64)
  /-- It goes on at the address that the slot holds. -/
  | jump (slot : UInt64)
  /-- It leaves the data alone. -/
  | none

/-- The instruction loads the register with this name. -/
def Isa.Found.Loads (found : Found) (register : String) : Prop :=
  (found.mnemonic = "mov" ∨ found.mnemonic = "ldr") ∧
    Text.startsWith found.operands (register ++ ", ") = true

/-- The reference of an instruction that makes this use of the data at an address. -/
def SlotUse.reference (data : UInt64) : SlotUse → Reference
  | .load _ slot => .direct (data + slot)
  | .jump slot => .through (data + slot)
  | .none => .none

/-- The instruction makes this use of the data at an address. -/
structure SlotUse.Shows (use : SlotUse) (data : UInt64) (found : Found) : Prop where
  reference_eq : found.reference = use.reference data
  loads : ∀ register slot, use = .load register slot → found.Loads register

namespace SlotUse

variable {data : UInt64} {found : Found}

/-- A load of the register from the slot shows this use. -/
theorem shows_load {register : String} {slot : UInt64} (hloads : found.Loads register)
    (hreference : found.reference = .direct (data + slot)) :
    (load register slot).Shows data found := by
  refine ⟨hreference, ?_⟩
  rintro _ _ ⟨⟩
  exact hloads

/-- The references of found instructions are those of the uses that they show. -/
theorem map_reference {uses : List SlotUse} {founds : List Found}
    (h : List.Forall₂ (fun use found => use.Shows data found) uses founds) :
    founds.map (·.reference) = uses.map (·.reference data) := by
  induction h with
  | nil => rfl
  | cons hfirst hrest ih => rw [List.map_cons, List.map_cons, hfirst.reference_eq, ih]

/-- Every use is shown by a found instruction. -/
theorem exists_shows {uses : List SlotUse} {founds : List Found}
    (h : List.Forall₂ (fun use found => use.Shows data found) uses founds) {use : SlotUse}
    (hmem : use ∈ uses) : ∃ found ∈ founds, use.Shows data found := by
  induction h with
  | nil => cases hmem
  | @cons first found uses founds hfirst hrest ih =>
    obtain rfl | hmem := List.mem_cons.1 hmem
    · exact ⟨found, List.mem_cons_self, hfirst⟩
    · obtain ⟨other, hother, hshows⟩ := ih hmem
      exact ⟨other, List.mem_cons_of_mem _ hother, hshows⟩

end SlotUse

/-- Two operands start with the first one and the comma. -/
theorem startsWith_intercalate (register other : String) :
    Text.startsWith (String.intercalate ", " [register, other]) (register ++ ", ") = true := by
  simp [Text.startsWith]

/-- The bytes at an address are instructions that make these uses of the data, one after the
other. -/
def Isa.Decoder.Uses {τ : Type} (decoder : Decoder τ) (memory : τ) (address : UInt64)
    (bytes : List UInt8) (data : UInt64) (uses : List SlotUse) : Prop :=
  ∃ founds, decoder.Spells memory address bytes founds ∧
    List.Forall₂ (fun use found => use.Shows data found) uses founds

namespace Isa.Decoder.Uses

variable {τ : Type} {decoder : Decoder τ} {data : UInt64}

/-- No bytes make no use. -/
theorem nil (memory : τ) (address : UInt64) : decoder.Uses memory address [] data [] :=
  ⟨[], .nil memory address, .nil⟩

/-- An instruction in front makes its use before those behind it. -/
theorem cons {memory memory' : τ} {address : UInt64} {bytes : List UInt8} {found : Found}
    {use : SlotUse} {uses : List SlotUse}
    (hfound : decoder.decode memory address bytes = some (found, memory'))
    (hlong : decoder.minLength ≤ bytes.length) (hpos : 0 < found.length)
    (hshows : use.Shows data found)
    (hbehind : decoder.Uses memory' (address + UInt64.ofNat found.length)
      (bytes.drop found.length) data uses) :
    decoder.Uses memory address bytes data (use :: uses) := by
  obtain ⟨founds, hspells, hall⟩ := hbehind
  exact ⟨found :: founds, .cons hfound hlong hpos hspells, .cons hshows hall⟩

end Isa.Decoder.Uses

/-! ## Code of x64 -/

namespace Isa.X86

/-- The first byte is read. -/
theorem byte_cons (b : UInt8) (rest : List UInt8) :
    Scan.byte.run (b :: rest) = some (b.toNat, rest) := rfl

/-- Four bytes are read as a signed number. -/
theorem signed_four (b₀ b₁ b₂ b₃ : UInt8) (rest : List UInt8) :
    (Scan.signed 4).run (b₀ :: b₁ :: b₂ :: b₃ :: rest) =
      some (signExtend 32 (littleEndian [b₀, b₁, b₂, b₃]), rest) := by
  have hnumber : (Scan.number 4).run (b₀ :: b₁ :: b₂ :: b₃ :: rest) =
      some (littleEndian [b₀, b₁, b₂, b₃], rest) := by
    simp [Scan.number, StateT.run]
  simp [Scan.signed, hnumber]

/-- The cell at a distance from the next instruction. -/
def ripCell (distance : UInt64) : Memory :=
  ⟨none, .rip, none, 1, distance⟩

/-- An operand byte whose place is a cell at a distance from the next instruction. -/
theorem operandByte_rip {modifiers : Modifiers} {b : UInt8} {distance : UInt64}
    (hnarrow : modifiers.narrowAddress = false) (hsegment : modifiers.segment = none)
    (hmod : b.toNat < 64) (hlow : b.toNat % 8 = 5)
    (hdistance : distance.toNat < 2 ^ 31 ∨ 2 ^ 64 - 2 ^ 31 ≤ distance.toNat)
    (rest : List UInt8) :
    (operandByte .bits64 modifiers).run (b :: (leastBytes distance 4 ++ rest)) =
      some (⟨b.toNat / 8 % 8, modifiers.extend 2 (b.toNat / 8 % 8), .memory (ripCell distance)⟩,
        rest) := by
  have hsigned : (Scan.signed 4).run (leastBytes distance 4 ++ rest) = some (distance, rest) := by
    have hextend := signExtend_leastBytes hdistance
    exact (signed_four _ _ _ _ rest).trans (congrArg (fun d => some (d, rest)) hextend)
  have hzero : b.toNat / 64 = 0 := Nat.div_eq_of_lt hmod
  simp [operandByte, byte_cons, hmod, hzero, hlow, hnarrow, hsegment, displacement, hsigned,
    ripCell]

/-- Behind its modifiers, an instruction is what its opcode says, and it ends where the bytes begin
that the opcode leaves. -/
theorem decode_of_body {address : UInt64} {bytes front rest behind : List UInt8}
    {modifiers : Modifiers} {found : Body} (hfront : bytes.take maxLength = front ++ behind)
    (hscan : Modifiers.scanAll .bits64 (front ++ behind) = (modifiers, rest))
    (hbody : (body .bits64 modifiers).run rest = some (found, behind))
    (hdistance : found.distance = none) :
    decode .bits64 address bytes =
      some ⟨address, front.length, found.mnemonic, found.operands, found.isBranch⟩ := by
  simp [decode, hfront, hscan, hbody, hdistance]

/-- An extension byte in front of a load is taken as a modifier. -/
theorem scanAll_extension {lead : UInt8} (hlead : lead = 0x48 ∨ lead = 0x4c) (rest : List UInt8) :
    Modifiers.scanAll .bits64 (lead :: 0x8b :: rest) =
      ({ extension := some lead.toNat }, 0x8b :: rest) := by
  obtain rfl | rfl := hlead
  · rfl
  · rfl

/-- A load from a cell at a distance from the next instruction. -/
def ripLoad (address : UInt64) (number : Nat) (distance : UInt64) : Insn :=
  ⟨address, 7, "mov", [.register (.general number .qword),
    .memory (ripCell distance) (some .qword)], false⟩

/-- A jump through a cell at a distance from the next instruction. -/
def ripJump (address distance : UInt64) : Insn :=
  ⟨address, 6, "jmp", [.memory (ripCell distance) (some .qword)], true⟩

section Distance

variable {distance : UInt64}
  (hdistance : distance.toNat < 2 ^ 31 ∨ 2 ^ 64 - 2 ^ 31 ≤ distance.toNat)
  (address : UInt64) (rest : List UInt8)

include hdistance

/-- The loads of `rax` and of `r10`. -/
theorem decode_ripLoad {lead operand : UInt8} {number : Nat}
    (hcode : (lead, operand, number) ∈ [(0x48, 0x05, 0), (0x4c, 0x15, 10)]) :
    decode .bits64 address ([lead, 0x8b, operand] ++ (leastBytes distance 4 ++ rest)) =
      some (ripLoad address number distance) := by
  have hbody : ∀ {modifiers : Modifiers} {bytes behind : List UInt8} {o : OperandByte},
      (operandByte .bits64 modifiers).run bytes = some (o, behind) →
      (body .bits64 modifiers).run (0x8b :: bytes) =
        some ({
          mnemonic := "mov"
          operands := [.register (register modifiers o.register modifiers.width),
            o.place.operand modifiers modifiers.width] }, behind) := by
    intro modifiers bytes behind o h
    simp [body, byte_cons, hasOperandByte, operandOpcode, h]
  have hfront : ([lead, 0x8b, operand] ++ (leastBytes distance 4 ++ rest)).take maxLength =
      ([lead, 0x8b, operand] ++ leastBytes distance 4) ++ rest.take 8 := rfl
  simp only [List.mem_cons, Prod.mk.injEq, List.not_mem_nil, or_false] at hcode
  obtain ⟨rfl, rfl, rfl⟩ | ⟨rfl, rfl, rfl⟩ := hcode
  · rw [decode_of_body hfront (scanAll_extension (.inl rfl) _)
      (hbody (operandByte_rip rfl rfl (by decide) (by decide) hdistance _)) rfl]
    rfl
  · rw [decode_of_body hfront (scanAll_extension (.inr rfl) _)
      (hbody (operandByte_rip rfl rfl (by decide) (by decide) hdistance _)) rfl]
    rfl

/-- The bytes of a jump through a cell at a distance are decoded as it. -/
theorem decode_ripJump :
    decode .bits64 address ([0xff, 0x25] ++ (leastBytes distance 4 ++ rest)) =
      some (ripJump address distance) := by
  have hoperand : (operandByte .bits64 {}).run (0x25 :: (leastBytes distance 4 ++ rest.take 9)) =
      some (⟨4, 4, .memory (ripCell distance)⟩, rest.take 9) :=
    operandByte_rip rfl rfl (by decide) (by decide) hdistance _
  have hbody : (body .bits64 {}).run (0xff :: 0x25 :: (leastBytes distance 4 ++ rest.take 9)) =
      some ({
        mnemonic := "jmp"
        operands := [.memory (ripCell distance) (some .qword)]
        isBranch := true }, rest.take 9) := by
    simp [body, byte_cons, transferGroup, hoperand, Place.operand, Mode.pointerWidth]
  have hfront : ([0xff, 0x25] ++ (leastBytes distance 4 ++ rest)).take maxLength =
      ([0xff, 0x25] ++ leastBytes distance 4) ++ rest.take 9 := rfl
  exact decode_of_body hfront rfl hbody rfl

end Distance

section Slot

variable {stride slot stop stub address : UInt64} {rest : List UInt8} {uses : List SlotUse}

/-- The distance to a slot that is written into the code of a stub fits 32 bits. -/
theorem distance_inReach (hstride : stride.toNat < 2 ^ 31) (hslot : slot.toNat ≤ stop.toNat)
    (hstop : stop.toNat ≤ 2 ^ 31) :
    (stride + slot - stop).toNat < 2 ^ 31 ∨ 2 ^ 64 - 2 ^ 31 ≤ (stride + slot - stop).toNat := by
  rw [UInt64.toNat_sub, UInt64.toNat_add]
  omega

/-- An x64 instruction in front makes its use before those behind it. -/
theorem uses_cons {bytes : List UInt8} {insn : Insn} {data : UInt64} {use : SlotUse}
    (hinsn : decode .bits64 address bytes = some insn) (hlong : 0 < bytes.length)
    (hpos : 0 < insn.length) (hshows : use.Shows data (insn.toFound .bits64))
    (hbehind : (decoder .bits64).Uses () (address + UInt64.ofNat insn.length)
      (bytes.drop insn.length) data uses) :
    (decoder .bits64).Uses () address bytes data (use :: uses) := by
  have hfound : (decoder .bits64).decode () address bytes = some (insn.toFound .bits64, ()) := by
    show (decode .bits64 address bytes).map _ = _
    rw [hinsn]
    rfl
  exact .cons hfound hlong hpos hshows hbehind

/-- A load from a slot at a distance makes this use, whatever stride and slot are in reach. -/
theorem uses_ripLoad {lead operand : UInt8} {number : Nat} {name : String}
    (hcode : (lead, operand, number) ∈ [(0x48, 0x05, 0), (0x4c, 0x15, 10)])
    (hname : (Register.general number .qword).name = name)
    (hstride : stride.toNat < 2 ^ 31) (hslot : slot.toNat ≤ stop.toNat)
    (hstop : stop.toNat ≤ 2 ^ 31) (hnext : address + 7 = stub + stop)
    (hrest : (decoder .bits64).Uses () (stub + stop) rest (stub + stride) uses) :
    (decoder .bits64).Uses () address
      ([lead, 0x8b, operand] ++ (Stub.slotDisplacement stride slot stop ++ rest)) (stub + stride)
      (.load name slot :: uses) := by
  subst hname
  have hinsn := decode_ripLoad (distance_inReach hstride hslot hstop) address rest hcode
  have hplace : address + 7 + (stride + slot - stop) = stub + stride + slot := by
    rw [hnext]
    grind
  refine uses_cons hinsn (Nat.zero_lt_succ _) (Nat.zero_lt_succ _)
    (SlotUse.shows_load ⟨.inl rfl, startsWith_intercalate _ _⟩ ?_) ?_
  · exact congrArg Reference.direct hplace
  · rw [← hnext] at hrest
    exact hrest

/-- A jump through a slot at a distance makes this use, whatever stride and slot are in reach. -/
theorem uses_ripJump (hstride : stride.toNat < 2 ^ 31) (hslot : slot.toNat ≤ stop.toNat)
    (hstop : stop.toNat ≤ 2 ^ 31) (hnext : address + 6 = stub + stop)
    (hrest : (decoder .bits64).Uses () (stub + stop) rest (stub + stride) uses) :
    (decoder .bits64).Uses () address
      ([0xff, 0x25] ++ (Stub.slotDisplacement stride slot stop ++ rest)) (stub + stride)
      (.jump slot :: uses) := by
  have hinsn := decode_ripJump (distance_inReach hstride hslot hstop) address rest
  have hplace : address + 6 + (stride + slot - stop) = stub + stride + slot := by
    rw [hnext]
    grind
  refine uses_cons hinsn (Nat.zero_lt_succ _) (Nat.zero_lt_succ _) ⟨?_, nofun⟩ ?_
  · exact congrArg Reference.through hplace
  · rw [← hnext] at hrest
    exact hrest

/-- The decrement of a counter leaves the data alone. -/
theorem uses_decrement (address data : UInt64) :
    (decoder .bits64).Uses () address [0x66, 0xff, 0x08] data [.none] := by
  have hinsn : decode .bits64 address [0x66, 0xff, 0x08] = some ⟨address, 3, "dec",
      [.memory ⟨none, .register (.general 0 .qword), none, 1, 0⟩ (some .word)], false⟩ := rfl
  exact uses_cons hinsn (Nat.zero_lt_succ _) (Nat.zero_lt_succ _) ⟨rfl, nofun⟩ (.nil () _)

end Slot

end Isa.X86

/-! ## Code of Arm64 -/

namespace Isa.Arm64

/-- A field of a word is a quotient and a remainder. -/
theorem field_eq (word low count : Nat) : field word low count = word / 2 ^ low % 2 ^ count := by
  rw [field, Nat.shiftRight_eq_div_pow, Nat.one_shiftLeft]

/-- The fields of a load do not overlap, so that they can be added. -/
theorem or_eq_add {k r : Nat} (hk : k < 2 ^ 19) (hr : r < 2 ^ 5) :
    0x58000000 ||| k <<< 5 ||| r = 0x58000000 + 32 * k + r := by
  have hfield : 2 ^ 5 * k < 2 ^ 24 := by omega
  have hshift : k <<< 5 = 2 ^ 5 * k := by rw [Nat.shiftLeft_eq, Nat.mul_comm]
  have hhigh : 0x58000000 ||| 2 ^ 5 * k = 2 ^ 5 * (0x2C00000 + k) := by
    have hadd := Nat.two_pow_add_eq_or_of_lt hfield 0x58
    have hfixed : 2 ^ 24 * 0x58 = 0x58000000 := by decide
    rw [hfixed] at hadd
    rw [← hadd]
    omega
  have hlow := Nat.two_pow_add_eq_or_of_lt hr (0x2C00000 + k)
  rw [hshift, hhigh, ← hlow]
  omega

/-- The word that loads a register: its fixed bits, the distance in words, and the register. -/
theorem toNat_loadWord {register distance : UInt64} (hregister : register.toNat < 2 ^ 5) :
    (Stub.loadWord register distance).toNat =
      0x58000000 + 32 * (distance.toNat / 4 % 2 ^ 19) + register.toNat := by
  have hfield : distance.toNat / 4 % 2 ^ 19 < 2 ^ 19 := Nat.mod_lt _ (Nat.two_pow_pos 19)
  have hmask : (distance / 4 &&& 0x7FFFF).toNat = distance.toNat / 4 % 2 ^ 19 := by
    rw [UInt64.toNat_and, UInt64.toNat_div]
    exact Nat.and_two_pow_sub_one_eq_mod _ 19
  have hshift : ((distance / 4 &&& 0x7FFFF) <<< 5).toNat = (distance.toNat / 4 % 2 ^ 19) <<< 5 := by
    rw [UInt64.toNat_shiftLeft, hmask]
    apply Nat.mod_eq_of_lt
    show (distance.toNat / 4 % 2 ^ 19) <<< 5 < 2 ^ 64
    rw [Nat.shiftLeft_eq]
    omega
  rw [← or_eq_add hfield hregister, Stub.loadWord, UInt64.toNat_or, UInt64.toNat_or, hshift]
  rfl

/-- Neither the distance nor the register reaches the bits from which the families of instructions
are told apart. -/
theorem field_load_high {k r low : Nat} (hk : k < 2 ^ 18) (hr : r < 31) (hlow : 23 ≤ low)
    (count : Nat) : field (0x58000000 + 32 * k + r) low count = field 0x58000000 low count := by
  obtain ⟨n, rfl⟩ := Nat.exists_eq_add_of_le hlow
  have hhigh : (0x58000000 + 32 * k + r) / 2 ^ 23 = 0x58000000 / 2 ^ 23 := by omega
  rw [field_eq, field_eq, Nat.pow_add, ← Nat.div_div_eq_div_mul, hhigh, Nat.div_div_eq_div_mul]

/-- A distance without its sign bit is read as it is. -/
theorem signedField_of_field {word k : Nat} (hfield : field word 5 19 = k) (hk : k < 2 ^ 18) :
    signedField word 5 19 4 = UInt64.ofNat (4 * k) := by
  apply UInt64.toNat_inj.1
  rw [signedField, hfield, signedOfBits, toNat_wordOfInt, UInt64.toNat_ofNat']
  simp only [Nat.one_shiftLeft, Int.ofNat_eq_natCast]
  split
  · omega
  · omega

/-- A field with a number below 31 names a full register. -/
theorem target_of_field {word r : Nat} (hfield : field word 0 5 = r) (hr : r < 31) :
    target true word = .register (.x r) := by
  have hne : (r == 31) = false := beq_eq_false_iff_ne.2 (by omega)
  simp [target, hfield, Register.ofNumber, hne]

/-- The decoder reads such a word as the load that it is, if the distance is not negative. -/
theorem decodeWord_load (address : UInt64) {k r : Nat} (hk : k < 2 ^ 18) (hpos : 0 < r)
    (hr : r < 31) :
    decodeWord address (0x58000000 + 32 * k + r) =
      some ⟨.ldr, [.register (.x r), .immediate (address + UInt64.ofNat (4 * k)) false], none⟩ := by
  have hfixed := fun low count (hlow : 23 ≤ low) => field_load_high hk hr hlow count
  generalize hword : 0x58000000 + 32 * k + r = word at hfixed ⊢
  have hnop : word ≠ 0xD503201F := by omega
  have hregister : field word 0 5 = r := by
    rw [field_eq]
    omega
  have hdistance : field word 5 19 = k := by
    rw [field_eq]
    omega
  have h23 : field word 23 6 = 0b110000 := hfixed 23 6 (by decide)
  have h24 : field word 24 5 = 0b11000 := hfixed 24 5 (by decide)
  have h24' : field word 24 6 = 0b011000 := hfixed 24 6 (by decide)
  have h24'' : field word 24 8 = 0b01011000 := hfixed 24 8 (by decide)
  have h25 : field word 25 6 = 0b101100 := hfixed 25 6 (by decide)
  have h26 : field word 26 6 = 0b010110 := hfixed 26 6 (by decide)
  have h30 : field word 30 2 = 0b01 := hfixed 30 2 (by decide)
  have hbranch : branch? address word = none := by
    simp [branch?, h24'', h25, h26]
  have hregisterBranch : registerBranch? word = none := by
    have hne : field word 0 5 ≠ 0 := by omega
    simp [registerBranch?, hne]
  have hrelative : relativeAddress? address word = none := by
    simp [relativeAddress?, h24]
  have hnumber : addNumber? word = none := by
    simp [addNumber?, h23]
  have hadd : addRegister? word = none := by
    simp [addRegister?, h24]
  have hregisterMove : registerMove? word = none := by
    -- The two lowest of these bits belong to the distance.
    have hmove : 0b1011000000 ≤ field word 21 10 ∧ field word 21 10 < 0b1011000100 := by
      rw [field_eq]
      omega
    have hcopy : field word 21 10 ≠ 0b0101010000 := by omega
    have htest : field word 21 10 ≠ 0b1101010000 := by omega
    have hselect : field word 21 10 ≠ 0b0011010100 := by omega
    simp [registerMove?, hcopy, htest, hselect]
  have hwide : wideMove? word = none := by
    simp [wideMove?, h23]
  have hload : literalLoad? address word =
      some ⟨.ldr, [.register (.x r), .immediate (address + UInt64.ofNat (4 * k)) false], none⟩ := by
    simp [literalLoad?, h24', h30, target_of_field hregister hr,
      signedField_of_field hdistance hk]
  simp [decodeWord, hnop, hbranch, hregisterBranch, hrelative, hnumber, hadd, hregisterMove, hwide,
    hload]

/-- The bytes of a word are decoded as this word. -/
theorem decode_leastBytes (address word : UInt64) (rest : List UInt8) :
    decode address (leastBytes word 4 ++ rest) =
      decodeWord address (littleEndian (leastBytes word 4)) := by
  have hlength : (leastBytes word 4).length = 4 := by simp [leastBytes]
  have htake : (leastBytes word 4 ++ rest).take 4 = leastBytes word 4 := List.take_left' hlength
  simp [decode, htake, hlength]

/-- The word of a load at a distance is decoded as it. -/
theorem decode_loadWord {register distance : UInt64} (hpos : 0 < register.toNat)
    (hregister : register.toNat < 31) (haligned : distance.toNat % 4 = 0)
    (hdistance : distance.toNat < 2 ^ 20) (address : UInt64) (rest : List UInt8) :
    decode address (leastBytes (Stub.loadWord register distance) 4 ++ rest) =
      some ⟨.ldr, [.register (.x register.toNat), .immediate (address + distance) false],
        none⟩ := by
  have hword : littleEndian (leastBytes (Stub.loadWord register distance) 4) =
      0x58000000 + 32 * (distance.toNat / 4) + register.toNat := by
    rw [littleEndian_leastBytes, toNat_loadWord (by omega)]
    omega
  have hback : UInt64.ofNat (4 * (distance.toNat / 4)) = distance := by
    rw [Nat.mul_div_cancel' (Nat.dvd_of_mod_eq_zero haligned), UInt64.ofNat_toNat]
  have hfield : distance.toNat / 4 < 2 ^ 18 := by omega
  rw [decode_leastBytes, hword, decodeWord_load address hfield hpos hregister, hback]

variable {facts : Facts} {address data : UInt64} {uses : List SlotUse}

/-- An Arm64 instruction in front makes its use before those behind it. -/
theorem uses_cons {bytes : List UInt8} {insn : Insn} {use : SlotUse}
    (hinsn : decode address bytes = some insn) (hlong : 4 ≤ bytes.length)
    (hshows : use.Shows data ⟨4, insn.op.name, insn.operandText, (facts.step insn).1⟩)
    (hbehind : decoder.Uses (facts.step insn).2 (address + 4) (bytes.drop 4) data uses) :
    decoder.Uses facts address bytes data (use :: uses) := by
  have hfound : decoder.decode facts address bytes =
      some (⟨4, insn.op.name, insn.operandText, (facts.step insn).1⟩, (facts.step insn).2) := by
    show (decode address bytes).map _ = _
    rw [hinsn]
    rfl
  exact .cons hfound hlong (Nat.zero_lt_succ _) hshows hbehind

/-- A load from a slot at a distance makes this use, and the cell of its register becomes known. -/
theorem uses_load {register distance slot : UInt64} {rest : List UInt8} {name : String}
    (hname : (Register.x register.toNat).name = name) (hpos : 0 < register.toNat)
    (hregister : register.toNat < 31) (haligned : distance.toNat % 4 = 0)
    (hdistance : distance.toNat < 2 ^ 20) (hslot : address + distance = data + slot)
    (hrest : decoder.Uses (facts.setCell (.x register.toNat) (data + slot)) (address + 4) rest data
      uses) :
    decoder.Uses facts address (leastBytes (Stub.loadWord register distance) 4 ++ rest) data
      (.load name slot :: uses) := by
  subst hname
  have hinsn := decode_loadWord hpos hregister haligned hdistance address rest
  rw [hslot] at hinsn
  exact uses_cons hinsn (Nat.le_add_left 4 _)
    (SlotUse.shows_load ⟨.inr rfl, startsWith_intercalate _ _⟩ rfl) hrest

/-- A branch through `x10` or `x11`, after a load of it from a slot, goes through that slot. -/
theorem uses_branch {word slot : UInt64} {number : Nat} {rest : List UInt8}
    (hword : (word, number) ∈ [(0xD61F0140, 10), (0xD61F0160, 11)])
    (hcell : facts.cells.get? (.x number) = some (data + slot))
    (hrest : decoder.Uses {} (address + 4) rest data uses) :
    decoder.Uses facts address (leastBytes word 4 ++ rest) data (.jump slot :: uses) := by
  have hinsn : decode address (leastBytes word 4 ++ rest) =
      some ⟨.br, [.register (.x number)], none⟩ := by
    simp only [List.mem_cons, Prod.mk.injEq, List.not_mem_nil, or_false] at hword
    rw [decode_leastBytes]
    obtain ⟨rfl, rfl⟩ | ⟨rfl, rfl⟩ := hword
    · rfl
    · rfl
  refine uses_cons hinsn (Nat.le_add_left 4 _) ⟨?_, nofun⟩ hrest
  show facts.transfer (some (.x number)) = .through (data + slot)
  simp [Facts.transfer, hcell]

/-- The counter is read and decremented. -/
theorem uses_decrement :
    decoder.Uses facts address (Stub.wordBytes [0x7940012A, 0x7100054A]) data [.none, .none] := by
  have hcounter : decode address (Stub.wordBytes [0x7940012A, 0x7100054A]) =
      some ⟨.ldrh, [.register (.w 10), .memory (.x 9) none 0 .none], none⟩ := rfl
  have hminus : ∀ address, decode address (Stub.wordBytes [0x7100054A]) =
      some ⟨.subs, [.register (.w 10), .register (.w 10), .immediate 1 false], none⟩ :=
    fun _ => rfl
  refine uses_cons hcounter (by decide) ⟨rfl, nofun⟩ ?_
  exact uses_cons (hminus _) (by decide) ⟨rfl, nofun⟩ (.nil _ _)

end Isa.Arm64

/-! ## Templates -/

namespace Stub

/-- What the instructions of a stub do with its data, in their order. -/
def uses : Isa → StubKind → List SlotUse
  | .x86 _, .callCounting => [.load "rax" 0, .none]
  | .x86 _, .stubPrecode => [.load "r10" 0, .jump 8]
  | .x86 _, .fixupPrecode => [.jump 0, .load "r10" 8, .jump 16]
  | .arm64, .callCounting => [.load "x9" 0, .none, .none]
  | .arm64, .stubPrecode => [.load "x10" 8, .load "x12" 0, .jump 8]
  | .arm64, .fixupPrecode => [.load "x11" 0, .jump 0, .load "x12" 8]

/-- The register in which a precode hands on the method descriptor. -/
def descriptorRegister : Isa → String
  | .x86 _ => "r10"
  | .arm64 => "x12"

/-- The fields for distances in the code of stubs reach over this stride. -/
def InReach : Isa → UInt64 → Prop
  | .x86 _, stride => stride.toNat < 2 ^ 31
  | .arm64, stride => stride.toNat % 4 = 0 ∧ 4 ≤ stride.toNat ∧ stride.toNat ≤ 2 ^ 20 - 12

/-- The code of every x64 template makes the uses of its kind. -/
theorem x64Templates_use {stride : UInt64} (hstride : InReach (.x86 .bits64) stride) (stub : UInt64)
    {template : StubTemplate} (h : template ∈ x64Templates stride) :
    (X86.decoder .bits64).Uses () stub template.pattern (stub + stride)
      (uses (.x86 .bits64) template.kind) := by
  have hr10 : ((0x4c, 0x15, 10) : UInt8 × UInt8 × Nat) ∈
      [(0x48, 0x05, 0), (0x4c, 0x15, 10)] := by decide
  simp only [x64Templates, templatesOf, List.mem_cons, List.not_mem_nil, or_false,
    List.append_assoc] at h
  obtain rfl | rfl | rfl := h
  · exact X86.uses_ripLoad List.mem_cons_self rfl hstride (by decide) (by decide) rfl
      (X86.uses_decrement _ _)
  · rw [← List.append_nil (slotDisplacement stride 8 13)]
    refine X86.uses_ripLoad hr10 rfl hstride (by decide) (by decide) rfl ?_
    exact X86.uses_ripJump hstride (by decide) (by decide) (UInt64.add_assoc stub 7 6) (.nil () _)
  · rw [← List.append_nil (slotDisplacement stride 16 19)]
    refine X86.uses_ripJump hstride (by decide) (by decide) rfl ?_
    refine X86.uses_ripLoad hr10 rfl hstride (by decide) (by decide) (UInt64.add_assoc stub 6 7) ?_
    exact X86.uses_ripJump hstride (by decide) (by decide) (UInt64.add_assoc stub 13 6) (.nil () _)

/-- The code of every Arm64 template makes the uses of its kind. -/
theorem arm64Templates_use {stride : UInt64} (hstride : InReach .arm64 stride) (stub : UInt64)
    {template : StubTemplate} (h : template ∈ arm64Templates stride) :
    Arm64.decoder.Uses {} stub template.pattern (stub + stride) (uses .arm64 template.kind) := by
  obtain ⟨haligned, hlow, hhigh⟩ := hstride
  have hfirst : stub + stride = stub + stride + 0 := (UInt64.add_zero _).symm
  have hplus : (stride + 8).toNat = stride.toNat + 8 := by
    rw [UInt64.toNat_add]
    show (stride.toNat + 8) % 2 ^ 64 = _
    omega
  have hminus : (stride - 4).toNat = stride.toNat - 4 := by
    rw [UInt64.toNat_sub_of_le]
    · rfl
    · exact UInt64.le_iff_toNat_le.2 hlow
  simp only [arm64Templates, templatesOf, List.mem_cons, List.not_mem_nil, or_false, wordBytes,
    List.flatMap_cons, List.flatMap_nil] at h
  obtain rfl | rfl | rfl := h
  · exact Arm64.uses_load rfl (by decide) (by decide) haligned (by omega) hfirst
      Arm64.uses_decrement
  · refine Arm64.uses_load rfl (by decide) (by decide) (by omega) (by omega)
      (UInt64.add_assoc stub stride 8).symm ?_
    refine Arm64.uses_load rfl (by decide) (by decide) (by omega) (by omega) (by grind) ?_
    exact Arm64.uses_branch List.mem_cons_self rfl (.nil _ _)
  · refine Arm64.uses_load rfl (by decide) (by decide) haligned (by omega) hfirst ?_
    refine Arm64.uses_branch (List.mem_cons_of_mem _ List.mem_cons_self) rfl ?_
    exact Arm64.uses_load rfl (by decide) (by decide) haligned (by omega) (by grind) (.nil _ _)

/-- The load of the descriptor register is the load of the slot that is looked up. -/
theorem load_mem_uses {isa : Isa} {stride : UInt64} {template : StubTemplate}
    (h : template ∈ isa.stubTemplates stride) (hprecode : template.isPrecode = true) :
    template.stride = stride ∧
      SlotUse.load (descriptorRegister isa) template.slotOffset ∈ uses isa template.kind := by
  cases isa with
  | x86 mode =>
    cases mode with
    | bits32 => cases h
    | bits64 =>
      simp only [Isa.stubTemplates, x64Templates, templatesOf, List.mem_cons, List.not_mem_nil,
        or_false] at h
      obtain rfl | rfl | rfl := h
      · cases hprecode
      · simp [uses, descriptorRegister]
      · simp [uses, descriptorRegister]
  | arm64 =>
    simp only [Isa.stubTemplates, arm64Templates, templatesOf, List.mem_cons, List.not_mem_nil,
      or_false] at h
    obtain rfl | rfl | rfl := h
    · cases hprecode
    · simp [uses, descriptorRegister]
    · simp [uses, descriptorRegister]

end Stub

/-- At every address, the code of a stub whose stride is in reach is made of instructions that refer
to exactly the slots that the stub has: one stride above the stub and the offset of the slot, modulo
the size of addresses.  In a precode, the load of the descriptor register refers to the slot that is
looked up when the stub is followed.  A listing of the code shows these references. -/
theorem stubTemplates_spell_uses {isa : Isa} {stride : UInt64} (hreach : Stub.InReach isa stride)
    (stub : UInt64) {template : StubTemplate} (h : template ∈ isa.stubTemplates stride) :
    ∃ founds, isa.Spells stub template.pattern founds ∧
      List.Forall₂ (fun use found => use.Shows (stub + stride) found)
        (Stub.uses isa template.kind) founds ∧
      (template.isPrecode = true → ∃ found ∈ founds, found.Loads (Stub.descriptorRegister isa) ∧
        found.reference = .direct (template.slotAddress stub)) ∧
      ∀ threshold, (isa.decode .builtIn threshold stub template.pattern).map (·.reference) =
        founds.map fun found => found.reference.address.filter (threshold < ·) := by
  obtain ⟨founds, hspells, huses⟩ : ∃ founds, isa.Spells stub template.pattern founds ∧
      List.Forall₂ (fun use found => use.Shows (stub + stride) found)
        (Stub.uses isa template.kind) founds := by
    cases isa with
    | x86 mode =>
      cases mode with
      | bits32 => cases h
      | bits64 => exact Stub.x64Templates_use hreach stub h
    | arm64 => exact Stub.arm64Templates_use hreach stub h
  refine ⟨founds, hspells, huses, ?_, ?_⟩
  · intro hprecode
    obtain ⟨hstride, hload⟩ := Stub.load_mem_uses h hprecode
    obtain ⟨found, hfound, hshows⟩ := SlotUse.exists_shows huses hload
    refine ⟨found, hfound, hshows.loads _ _ rfl, ?_⟩
    rw [hshows.reference_eq, StubTemplate.slotAddress, hstride]
    rfl
  · intro threshold
    exact hspells.map_reference threshold

/-- Stubs whose data lies at address zero, behind the largest address, and at the stub itself, which
is a negative distance away. -/
theorem stubTemplates_spell_uses_wrapped :
    (Stub.InReach .arm64 0x4000 ∧
      ∃ founds, Isa.Spells .arm64 0xFFFFFFFFFFFFC000
          [0x4A, 0x00, 0x02, 0x58, 0xEC, 0xFF, 0x01, 0x58, 0x40, 0x01, 0x1F, 0xD6] founds ∧
        founds.map (·.reference) = [.direct 8, .direct 0, .through 8]) ∧
    (Stub.InReach (.x86 .bits64) 0 ∧
      ∃ founds, Isa.Spells (.x86 .bits64) 3
          [0x48, 0x8B, 0x05, 0xF9, 0xFF, 0xFF, 0xFF, 0x66, 0xFF, 0x08] founds ∧
        founds.map (·.reference) = [.direct 3, .none]) := by
  have harm : Stub.InReach .arm64 0x4000 := by
    unfold Stub.InReach
    decide
  have hx64 : Stub.InReach (.x86 .bits64) 0 := by
    unfold Stub.InReach
    decide
  refine ⟨⟨harm, ?_⟩, hx64, ?_⟩
  · obtain ⟨founds, hspells, huses, -⟩ := stubTemplates_spell_uses harm 0xFFFFFFFFFFFFC000
      (List.mem_cons_of_mem _ List.mem_cons_self)
    exact ⟨founds, hspells, SlotUse.map_reference huses⟩
  · obtain ⟨founds, hspells, huses, -⟩ := stubTemplates_spell_uses hx64 3 List.mem_cons_self
    exact ⟨founds, hspells, SlotUse.map_reference huses⟩

end CodeListing
