import Mathlib

/-!
# The VP8 header of a video packet

`RTPVideoHeaderVP8` (`module_common_types.h`).
-/

namespace PerchWebrtc.Vp8

def kNoPictureId : BitVec 16 := -1
def kNoTl0PicIdx : BitVec 16 := -1
def kNoTemporalIdx : BitVec 8 := -1
def kNoKeyIdx : BitVec 32 := -1

structure RTPVideoHeaderVP8 where
  nonReference : Bool := false
  pictureId : BitVec 16 := kNoPictureId
  tl0PicIdx : BitVec 16 := kNoTl0PicIdx
  temporalIdx : BitVec 8 := kNoTemporalIdx
  layerSync : Bool := false
  keyIdx : BitVec 32 := kNoKeyIdx

end PerchWebrtc.Vp8
