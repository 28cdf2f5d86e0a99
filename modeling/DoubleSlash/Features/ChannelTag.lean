import DoubleSlash.Lib.Assoc
import Mathlib.Data.Finset.Erase
import Mathlib.Data.Finset.Insert

/-!
# Channel tags

`channel_tag.rs` of the features crate: the tags that the datagram features of a session have.
-/

namespace DoubleSlash.Features

open Assoc

/-- `DYNAMIC_TAG_START`. -/
def dynamicTagStart : UInt8 := 0x10

/-- `DYNAMIC_TAG_END`. -/
def dynamicTagEnd : UInt8 := 0xEF

/-- `ChannelTagError`. -/
inductive ChannelTagError where
  | exhausted
  | alreadyBound (feature : String)
  | notBound (feature : String)
  | outOfRange (tag : UInt8)
  | tagInUse (tag : UInt8)
  deriving DecidableEq

/-- `ChannelTagRegistry`. -/
structure ChannelTagRegistry where
  byFeature : HashMap String UInt8
  byTag : HashMap UInt8 String
  inUse : Finset UInt8

namespace ChannelTagRegistry

/-- `ChannelTagRegistry::new`. -/
def new : ChannelTagRegistry := ⟨∅, ∅, ∅⟩

/-- `DYNAMIC_TAG_START..=DYNAMIC_TAG_END`. -/
def dynamicTags : List UInt8 := (List.range 224).map fun n => UInt8.ofNat (0x10 + n)

/-- The feature gets the tag. -/
def record (r : ChannelTagRegistry) (featureId : String) (tag : UInt8) : ChannelTagRegistry where
  byFeature := r.byFeature.insert featureId tag
  byTag := r.byTag.insert tag featureId
  inUse := insert tag r.inUse

/-- `bind`. -/
def bind (r : ChannelTagRegistry) (featureId : String) : ChannelTagRegistry × Except ChannelTagError UInt8 :=
  if featureId ∈ r.byFeature then (r, .error (.alreadyBound featureId))
  else
    match dynamicTags.find? fun tag => decide (tag ∉ r.inUse) with
    | none => (r, .error .exhausted)
    | some tag => (r.record featureId tag, .ok tag)

/-- `bind_to`. -/
def bindTo (r : ChannelTagRegistry) (featureId : String) (tag : UInt8) : ChannelTagRegistry × Except ChannelTagError Unit :=
  if ¬(dynamicTagStart ≤ tag ∧ tag ≤ dynamicTagEnd) then (r, .error (.outOfRange tag))
  else if featureId ∈ r.byFeature then (r, .error (.alreadyBound featureId))
  else if tag ∈ r.inUse then (r, .error (.tagInUse tag))
  else (r.record featureId tag, .ok ())

/-- `release`. -/
def release (r : ChannelTagRegistry) (featureId : String) : ChannelTagRegistry × Except ChannelTagError UInt8 :=
  match r.byFeature.lookup featureId with
  | none => (r, .error (.notBound featureId))
  | some tag => (⟨r.byFeature.erase featureId, r.byTag.erase tag, r.inUse.erase tag⟩, .ok tag)

end ChannelTagRegistry

end DoubleSlash.Features
