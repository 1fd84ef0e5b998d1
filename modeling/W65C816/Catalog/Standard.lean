import W65C816.Catalog.Table

/-!
# The standard instruction set

The instruction set of the 65C816. Each of the 256 leading bytes has an instruction, and they are
listed in the order of the bytes.
-/

set_option autoImplicit false

namespace W65C816

open Addressing

/-- The operation and the mode of each leading byte, sixteen to a row of the opcode map. -/
def standardEncodings : List (Opcode × Mode) :=
  [(.brk, .immediate), (.ora, .directIndexedIndirect), (.cop, .immediate),
   (.ora, .stackRelative), (.tsb, .direct), (.ora, .direct), (.asl, .direct),
   (.ora, .directIndirectLong), (.php, .implied), (.ora, .immediate), (.asl, .accumulator),
   (.phd, .implied), (.tsb, .absolute), (.ora, .absolute), (.asl, .absolute),
   (.ora, .absoluteLong),
   (.bpl, .programCounterRelative), (.ora, .directIndirectIndexed), (.ora, .directIndirect),
   (.ora, .stackRelativeIndirectIndexed), (.trb, .direct), (.ora, .directIndexedX),
   (.asl, .directIndexedX), (.ora, .directIndirectIndexedLong), (.clc, .implied),
   (.ora, .absoluteIndexedY), (.inc, .accumulator), (.tcs, .implied), (.trb, .absolute),
   (.ora, .absoluteIndexedX), (.asl, .absoluteIndexedX), (.ora, .absoluteLongIndexedX),
   (.jsr, .absolute), (.and, .directIndexedIndirect), (.jsl, .absoluteLong),
   (.and, .stackRelative), (.bit, .direct), (.and, .direct), (.rol, .direct),
   (.and, .directIndirectLong), (.plp, .implied), (.and, .immediate), (.rol, .accumulator),
   (.pld, .implied), (.bit, .absolute), (.and, .absolute), (.rol, .absolute),
   (.and, .absoluteLong),
   (.bmi, .programCounterRelative), (.and, .directIndirectIndexed), (.and, .directIndirect),
   (.and, .stackRelativeIndirectIndexed), (.bit, .directIndexedX), (.and, .directIndexedX),
   (.rol, .directIndexedX), (.and, .directIndirectIndexedLong), (.sec, .implied),
   (.and, .absoluteIndexedY), (.dec, .accumulator), (.tsc, .implied), (.bit, .absoluteIndexedX),
   (.and, .absoluteIndexedX), (.rol, .absoluteIndexedX), (.and, .absoluteLongIndexedX),
   (.rti, .implied), (.eor, .directIndexedIndirect), (.wdm, .immediate), (.eor, .stackRelative),
   (.mvp, .blockMove), (.eor, .direct), (.lsr, .direct), (.eor, .directIndirectLong),
   (.pha, .implied), (.eor, .immediate), (.lsr, .accumulator), (.phk, .implied),
   (.jmp, .absolute), (.eor, .absolute), (.lsr, .absolute), (.eor, .absoluteLong),
   (.bvc, .programCounterRelative), (.eor, .directIndirectIndexed), (.eor, .directIndirect),
   (.eor, .stackRelativeIndirectIndexed), (.mvn, .blockMove), (.eor, .directIndexedX),
   (.lsr, .directIndexedX), (.eor, .directIndirectIndexedLong), (.cli, .implied),
   (.eor, .absoluteIndexedY), (.phy, .implied), (.tcd, .implied), (.jml, .absoluteLong),
   (.eor, .absoluteIndexedX), (.lsr, .absoluteIndexedX), (.eor, .absoluteLongIndexedX),
   (.rts, .implied), (.adc, .directIndexedIndirect), (.per, .programCounterRelativeLong),
   (.adc, .stackRelative), (.stz, .direct), (.adc, .direct), (.ror, .direct),
   (.adc, .directIndirectLong), (.pla, .implied), (.adc, .immediate), (.ror, .accumulator),
   (.rtl, .implied), (.jmp, .absoluteIndirect), (.adc, .absolute), (.ror, .absolute),
   (.adc, .absoluteLong),
   (.bvs, .programCounterRelative), (.adc, .directIndirectIndexed), (.adc, .directIndirect),
   (.adc, .stackRelativeIndirectIndexed), (.stz, .directIndexedX), (.adc, .directIndexedX),
   (.ror, .directIndexedX), (.adc, .directIndirectIndexedLong), (.sei, .implied),
   (.adc, .absoluteIndexedY), (.ply, .implied), (.tdc, .implied),
   (.jmp, .absoluteIndexedIndirect), (.adc, .absoluteIndexedX), (.ror, .absoluteIndexedX),
   (.adc, .absoluteLongIndexedX),
   (.bra, .programCounterRelative), (.sta, .directIndexedIndirect),
   (.brl, .programCounterRelativeLong), (.sta, .stackRelative), (.sty, .direct), (.sta, .direct),
   (.stx, .direct), (.sta, .directIndirectLong), (.dey, .implied), (.bit, .immediate),
   (.txa, .implied), (.phb, .implied), (.sty, .absolute), (.sta, .absolute), (.stx, .absolute),
   (.sta, .absoluteLong),
   (.bcc, .programCounterRelative), (.sta, .directIndirectIndexed), (.sta, .directIndirect),
   (.sta, .stackRelativeIndirectIndexed), (.sty, .directIndexedX), (.sta, .directIndexedX),
   (.stx, .directIndexedY), (.sta, .directIndirectIndexedLong), (.tya, .implied),
   (.sta, .absoluteIndexedY), (.txs, .implied), (.txy, .implied), (.stz, .absolute),
   (.sta, .absoluteIndexedX), (.stz, .absoluteIndexedX), (.sta, .absoluteLongIndexedX),
   (.ldy, .immediate), (.lda, .directIndexedIndirect), (.ldx, .immediate),
   (.lda, .stackRelative), (.ldy, .direct), (.lda, .direct), (.ldx, .direct),
   (.lda, .directIndirectLong), (.tay, .implied), (.lda, .immediate), (.tax, .implied),
   (.plb, .implied), (.ldy, .absolute), (.lda, .absolute), (.ldx, .absolute),
   (.lda, .absoluteLong),
   (.bcs, .programCounterRelative), (.lda, .directIndirectIndexed), (.lda, .directIndirect),
   (.lda, .stackRelativeIndirectIndexed), (.ldy, .directIndexedX), (.lda, .directIndexedX),
   (.ldx, .directIndexedY), (.lda, .directIndirectIndexedLong), (.clv, .implied),
   (.lda, .absoluteIndexedY), (.tsx, .implied), (.tyx, .implied), (.ldy, .absoluteIndexedX),
   (.lda, .absoluteIndexedX), (.ldx, .absoluteIndexedY), (.lda, .absoluteLongIndexedX),
   (.cpy, .immediate), (.cmp, .directIndexedIndirect), (.rep, .immediate),
   (.cmp, .stackRelative), (.cpy, .direct), (.cmp, .direct), (.dec, .direct),
   (.cmp, .directIndirectLong), (.iny, .implied), (.cmp, .immediate), (.dex, .implied),
   (.wai, .implied), (.cpy, .absolute), (.cmp, .absolute), (.dec, .absolute),
   (.cmp, .absoluteLong),
   (.bne, .programCounterRelative), (.cmp, .directIndirectIndexed), (.cmp, .directIndirect),
   (.cmp, .stackRelativeIndirectIndexed), (.pei, .directIndirect), (.cmp, .directIndexedX),
   (.dec, .directIndexedX), (.cmp, .directIndirectIndexedLong), (.cld, .implied),
   (.cmp, .absoluteIndexedY), (.phx, .implied), (.stp, .implied), (.jml, .absoluteIndirectLong),
   (.cmp, .absoluteIndexedX), (.dec, .absoluteIndexedX), (.cmp, .absoluteLongIndexedX),
   (.cpx, .immediate), (.sbc, .directIndexedIndirect), (.sep, .immediate),
   (.sbc, .stackRelative), (.cpx, .direct), (.sbc, .direct), (.inc, .direct),
   (.sbc, .directIndirectLong), (.inx, .implied), (.sbc, .immediate), (.nop, .implied),
   (.xba, .implied), (.cpx, .absolute), (.sbc, .absolute), (.inc, .absolute),
   (.sbc, .absoluteLong),
   (.beq, .programCounterRelative), (.sbc, .directIndirectIndexed), (.sbc, .directIndirect),
   (.sbc, .stackRelativeIndirectIndexed), (.pea, .absolute), (.sbc, .directIndexedX),
   (.inc, .directIndexedX), (.sbc, .directIndirectIndexedLong), (.sed, .implied),
   (.sbc, .absoluteIndexedY), (.plx, .implied), (.xce, .implied),
   (.jsr, .absoluteIndexedIndirect), (.sbc, .absoluteIndexedX), (.inc, .absoluteIndexedX),
   (.sbc, .absoluteLongIndexedX)]

/-- The instructions whose leading bytes count up from zero. -/
def Registry.ofEncodings (encodings : List (Opcode × Mode)) : Registry :=
  encodings.mapIdx fun i (opcode, mode) => { code := UInt8.ofNat i, opcode, mode }

/-- Counting up, 256 leading bytes are all different. -/
theorem Registry.admissible_ofEncodings (encodings : List (Opcode × Mode))
    (valid : ∀ encoding ∈ encodings, encoding.1 ≠ .invalid) (short : encodings.length ≤ 256) :
    (Registry.ofEncodings encodings).Admissible := by
  constructor
  · intro instruction member
    obtain ⟨i, h, rfl⟩ := List.mem_mapIdx.mp member
    simpa [Instruction.isValid] using valid _ (List.getElem_mem h)
  · rw [List.pairwise_iff_getElem]
    intro i j hi hj less same
    simp only [Registry.ofEncodings, List.length_mapIdx] at hj
    simp only [Registry.ofEncodings, List.getElem_mapIdx] at same
    have := congrArg UInt8.toNat same
    simp at this
    omega

/-- Every instruction of the 65C816. -/
def Registry.standard : Registry :=
  Registry.ofEncodings standardEncodings

/-- The standard instructions are valid and their codes are distinct. -/
theorem Registry.admissible_standard : Registry.standard.Admissible :=
  Registry.admissible_ofEncodings _ (by decide +kernel) (by decide +kernel)

/-- The table of the standard instruction set. -/
def DispatchTable.standard : DispatchTable where
  registry := Registry.standard
  admissible := Registry.admissible_standard
  entries := Vector.ofFn fun i => Registry.standard.entry (UInt8.ofNat i)
  entries_eq := rfl
  encodings := Registry.standard.reverseIndex
  encodings_eq := rfl

/-- The standard table holds the standard instructions, in their order. -/
theorem DispatchTable.registry_standard : standard.registry = Registry.standard := by
  rw [standard]

end W65C816
