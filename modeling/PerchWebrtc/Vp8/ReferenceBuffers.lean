import Mathlib.Data.BitVec

/-!
# The flags of the VP8 encoder and its reference buffers

`vp8cx.h`, `vp8_cx_iface.c`: the flags of a frame say which of the three buffers the encoder may
refer to and which it updates. As soon as a flag forbids or forces an update, the buffers whose
update is not forbidden are updated.
-/

namespace PerchWebrtc.Vp8

def VP8_EFLAG_NO_REF_LAST : BitVec 32 := 1#32 <<< 16
def VP8_EFLAG_NO_REF_GF : BitVec 32 := 1#32 <<< 17
def VP8_EFLAG_NO_UPD_LAST : BitVec 32 := 1#32 <<< 18
def VP8_EFLAG_FORCE_GF : BitVec 32 := 1#32 <<< 19
def VP8_EFLAG_NO_UPD_ENTROPY : BitVec 32 := 1#32 <<< 20
def VP8_EFLAG_NO_REF_ARF : BitVec 32 := 1#32 <<< 21
def VP8_EFLAG_NO_UPD_GF : BitVec 32 := 1#32 <<< 22
def VP8_EFLAG_NO_UPD_ARF : BitVec 32 := 1#32 <<< 23
def VP8_EFLAG_FORCE_ARF : BitVec 32 := 1#32 <<< 24

inductive RefBuffer
  | last
  | golden
  | altRef
deriving DecidableEq, Repr

namespace RefBuffer

def noRef : RefBuffer → BitVec 32
  | last => VP8_EFLAG_NO_REF_LAST
  | golden => VP8_EFLAG_NO_REF_GF
  | altRef => VP8_EFLAG_NO_REF_ARF

def noUpd : RefBuffer → BitVec 32
  | last => VP8_EFLAG_NO_UPD_LAST
  | golden => VP8_EFLAG_NO_UPD_GF
  | altRef => VP8_EFLAG_NO_UPD_ARF

instance decidableForall (P : RefBuffer → Prop) [DecidablePred P] : Decidable (∀ b, P b) :=
  decidable_of_iff (P last ∧ P golden ∧ P altRef)
    ⟨fun ⟨hl, hg, ha⟩ b => by cases b <;> assumption, fun h => ⟨h _, h _, h _⟩⟩

end RefBuffer

/-- The frame may refer to the buffer. -/
def mayRefer (flags : BitVec 32) (b : RefBuffer) : Bool := flags &&& b.noRef == 0

/-- A delta frame updates the buffer. -/
def updates (flags : BitVec 32) (b : RefBuffer) : Bool := flags &&& b.noUpd == 0

end PerchWebrtc.Vp8
