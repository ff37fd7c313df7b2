import CS162.Foundation.ProtectedMode

/-!
# Descriptors

How the processor reads the segment descriptors and the gates in its tables.
-/

namespace CS162.Foundation.ProtectedMode

/-- The fields of a segment descriptor. -/
structure SegmentDescriptor where
  base : DWord
  limit : BitVec 20
  type : BitVec 4
  codeOrData : Bool
  dpl : BitVec 2
  present : Bool
  wide : Bool
  pages : Bool
  deriving DecidableEq

def SegmentDescriptor.ofBits (bits : BitVec 64) : SegmentDescriptor where
  base := bits.extractLsb' 56 8 ++ bits.extractLsb' 32 8 ++ bits.extractLsb' 16 16
  limit := bits.extractLsb' 48 4 ++ bits.extractLsb' 0 16
  type := bits.extractLsb' 40 4
  codeOrData := bits.getLsbD 44
  dpl := bits.extractLsb' 45 2
  present := bits.getLsbD 47
  wide := bits.getLsbD 54
  pages := bits.getLsbD 55

/-- The last address of a segment that does not grow downwards. -/
def SegmentDescriptor.last (descriptor : SegmentDescriptor) : Nat :=
  descriptor.base.toNat +
    if descriptor.pages then descriptor.limit.toNat * 4096 + 4095
    else descriptor.limit.toNat

/-- The fields of a gate. -/
structure GateDescriptor where
  selector : BitVec 16
  offset : DWord
  type : BitVec 4
  system : Bool
  dpl : BitVec 2
  present : Bool
  deriving DecidableEq

def GateDescriptor.ofBits (bits : BitVec 64) : GateDescriptor where
  selector := bits.extractLsb' 16 16
  offset := bits.extractLsb' 48 16 ++ bits.extractLsb' 0 16
  type := bits.extractLsb' 40 4
  system := !bits.getLsbD 44
  dpl := bits.extractLsb' 45 2
  present := bits.getLsbD 47

/-- A gate for 32-bit handlers as the processor goes through it. -/
def GateDescriptor.gate (descriptor : GateDescriptor) : Option Gate :=
  if descriptor.present && descriptor.system then
    if descriptor.type = 14#4 then
      some ⟨descriptor.selector, descriptor.offset, true⟩
    else if descriptor.type = 15#4 then
      some ⟨descriptor.selector, descriptor.offset, false⟩
    else none
  else none

/-- The descriptor of a selector in the global table; there is no local one. -/
def segmentOf (gdt : List (BitVec 64)) (selector : BitVec 16) : SegmentDescriptor :=
  SegmentDescriptor.ofBits (gdt.getD (selector >>> 3).toNat 0#64)

/-- A selector of an entry of the global table for code or data that is there. -/
def usable (gdt : List (BitVec 64)) (selector : BitVec 16) : Bool :=
  !selector.getLsbD 2 && (segmentOf gdt selector).present && (segmentOf gdt selector).codeOrData

def SegmentDescriptor.isCode (descriptor : SegmentDescriptor) : Bool := descriptor.type.getLsbD 3

/-- Code that all outer rings may call. -/
def SegmentDescriptor.conforming (descriptor : SegmentDescriptor) : Bool :=
  descriptor.isCode && descriptor.type.getLsbD 2

/-- Data that may be written, or code that may be read. -/
def SegmentDescriptor.permissive (descriptor : SegmentDescriptor) : Bool :=
  descriptor.type.getLsbD 1

/-- Code in a ring may load a register for a data segment with the selector: it is
null, or it is one of a segment that the ring may read. -/
def loadsData (gdt : List (BitVec 64)) (level : BitVec 2) (selector : BitVec 16) :
    Bool :=
  selector >>> 2 == 0#16 ||
    usable gdt selector &&
      (!(segmentOf gdt selector).isCode || (segmentOf gdt selector).permissive) &&
        ((segmentOf gdt selector).conforming ||
          decide (level ≤ (segmentOf gdt selector).dpl) &&
            decide (ring selector ≤ (segmentOf gdt selector).dpl))

/-- Code in a ring may load the register for the stack segment with the selector. -/
def loadsStack (gdt : List (BitVec 64)) (level : BitVec 2) (selector : BitVec 16) :
    Bool :=
  usable gdt selector && !(segmentOf gdt selector).isCode &&
    (segmentOf gdt selector).permissive && ring selector == level &&
      (segmentOf gdt selector).dpl == level

/-- Code in a ring may jump to the segment of the selector. -/
def loadsCode (gdt : List (BitVec 64)) (level : BitVec 2) (selector : BitVec 16) :
    Bool :=
  usable gdt selector && (segmentOf gdt selector).isCode &&
    if (segmentOf gdt selector).conforming then
      decide ((segmentOf gdt selector).dpl ≤ level)
    else decide (ring selector ≤ level) && (segmentOf gdt selector).dpl == level

/-- The selector that is in the register after a jump: the ring is still the same. -/
def atLevel (selector : BitVec 16) (level : BitVec 2) : BitVec 16 :=
  (selector >>> 2 <<< 2) ||| level.setWidth 16

end CS162.Foundation.ProtectedMode
