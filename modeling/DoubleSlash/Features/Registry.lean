import DoubleSlash.Features.ChannelTag
import DoubleSlash.Features.Quota
import DoubleSlash.Lib.Text

/-!
# The feature registry

`FeatureRegistry` of `registry.rs` and the descriptors of `descriptor.rs`: what is registered under an id, the quotas that a message of
a feature has to pass, and the invocation of a datagram feature. A module is whatever type the registry is used with; what it answers
to an invocation is given with the call.
-/

namespace DoubleSlash.Features

open Assoc Protocol Text

/-- `ChannelKind`. -/
inductive ChannelKind where
  | datagram | stream | request
  deriving DecidableEq

/-- `CapabilityDescriptor`. -/
structure CapabilityDescriptor where
  id : String
  version : String
  kind : ChannelKind
  params : Json

/-- `FeatureError`. -/
inductive FeatureError where
  | invalidId (reason : String)
  | invalidVersion (reason : String)
  | duplicate (id : String)
  deriving DecidableEq

/-- `CapabilityDescriptor::validate`. -/
def CapabilityDescriptor.validate (cap : CapabilityDescriptor) : Except FeatureError Unit :=
  if cap.id = "" then .error (.invalidId "empty id")
  else if cap.id.toList.any isWhitespace then .error (.invalidId "id must not contain whitespace")
  else if !cap.id.toList.contains '.' then .error (.invalidId "id must use reverse-DNS form (namespace.subname)")
  else if cap.version = "" then .error (.invalidVersion "empty version")
  else .ok ()

/-- `ModuleError`. -/
inductive ModuleError where
  | permissionDenied (reason : String)
  | invalidParams (reason : String)
  | internal (reason : String)
  deriving DecidableEq

/-- `InvocationContext`. -/
structure InvocationContext where
  peer : String
  params : Json
  channelTag : Option UInt8

/-- `Entry`. -/
structure Entry (M : Type) where
  descriptor : CapabilityDescriptor
  module : Option M

/-- `FeatureRegistry`. -/
structure FeatureRegistry (M : Type) where
  inner : HashMap String (Entry M)
  quotas : QuotaRegistry
  outboundQuotas : QuotaRegistry

namespace FeatureRegistry

variable {M : Type}

/-- `FeatureRegistry::new`. -/
def new : FeatureRegistry M := ⟨∅, ⟨∅⟩, ⟨∅⟩⟩

/-- `quota_params_for`. -/
def quotaParamsFor (descriptor : CapabilityDescriptor) : QuotaParams := .fromParams descriptor.params

/-- `quota_params_outbound_for`. -/
def quotaParamsOutboundFor (descriptor : CapabilityDescriptor) : QuotaParams := .fromParamsOutbound descriptor.params

/-- `register`. -/
def register (r : FeatureRegistry M) (cap : CapabilityDescriptor) : FeatureRegistry M × Except FeatureError Unit :=
  match cap.validate with
  | .error e => (r, .error e)
  | .ok () =>
    if cap.id ∈ r.inner then (r, .error (.duplicate cap.id))
    else ({ r with inner := r.inner.insert cap.id ⟨cap, none⟩ }, .ok ())

/-- `upsert`. -/
def upsert (r : FeatureRegistry M) (cap : CapabilityDescriptor) : FeatureRegistry M × Except FeatureError Unit :=
  match cap.validate with
  | .error e => (r, .error e)
  | .ok () =>
    let prior := (r.inner.lookup cap.id).bind Entry.module
    ({ r with inner := (r.inner.erase cap.id).insert cap.id ⟨cap, prior⟩ }, .ok ())

/-- `remove`. -/
def remove (r : FeatureRegistry M) (id : String) : FeatureRegistry M × Option CapabilityDescriptor :=
  ({ r with inner := r.inner.erase id }, (r.inner.lookup id).map Entry.descriptor)

/-- `bind_module`. -/
def bindModule (r : FeatureRegistry M) (id : String) (module : M) : FeatureRegistry M × Bool :=
  match r.inner.lookup id with
  | none => (r, false)
  | some entry => ({ r with inner := r.inner.insert id { entry with module := some module } }, true)

/-- `module`. -/
def moduleOf (r : FeatureRegistry M) (id : String) : Option M := (r.inner.lookup id).bind Entry.module

/-- `gate_inbound_through_feature`. -/
def gateInboundThroughFeature (r : FeatureRegistry M) (now : ℚ) (featureId peerId : String) (byteCount : Nat) :
    FeatureRegistry M × Bool :=
  match r.inner.lookup featureId with
  | none => (r, true)
  | some entry =>
    let gated := r.quotas.tryConsume now featureId peerId byteCount (quotaParamsFor entry.descriptor)
    ({ r with quotas := gated.1 }, gated.2)

/-- `gate_inbound_fanout_through_feature`. -/
def gateInboundFanoutThroughFeature (r : FeatureRegistry M) (now : ℚ) (featureId peerId : String) (byteCount : Nat) :
    FeatureRegistry M × Bool :=
  match r.inner.lookup featureId with
  | none => (r, true)
  | some entry =>
    let gated := r.quotas.tryConsume now featureId peerId byteCount (quotaParamsOutboundFor entry.descriptor)
    ({ r with quotas := gated.1 }, gated.2)

/-- `gate_through_feature`. -/
def gateThroughFeature (r : FeatureRegistry M) (now : ℚ) (featureId peerId : String) (byteCount : Nat) : FeatureRegistry M × Bool :=
  match r.inner.lookup featureId with
  | none => (r, true)
  | some entry =>
    let gated := r.outboundQuotas.tryConsume now featureId peerId byteCount (quotaParamsOutboundFor entry.descriptor)
    ({ r with outboundQuotas := gated.1 }, gated.2)

/-- `dispatch_invoke`. -/
def dispatchInvoke (r : FeatureRegistry M) (onInvoke : M → InvocationContext → Except ModuleError Unit) (id : String)
    (ctx : InvocationContext) : Except ModuleError Unit :=
  match r.moduleOf id with
  | none => .error (.internal ("no module bound to '" ++ id ++ "'"))
  | some module => onInvoke module ctx

/-- How a kind is shown. -/
def ChannelKind.debug : ChannelKind → String
  | .datagram => "Datagram"
  | .stream => "Stream"
  | .request => "Request"

/-- A byte as two digits. -/
def hexByte (n : UInt8) : String :=
  let digit (d : Nat) : Char := Char.ofNat (if d < 10 then 48 + d else 55 + d)
  String.ofList [digit (n.toNat / 16), digit (n.toNat % 16)]

/-- How a failed allocation is shown. -/
def tagErrorText : ChannelTagError → String
  | .exhausted => "channel tag space exhausted (256 tags max per session)"
  | .alreadyBound feature => "feature `" ++ feature ++ "` already has a channel tag bound"
  | .notBound feature => "no channel tag bound for feature `" ++ feature ++ "`"
  | .outOfRange tag => "channel tag 0x" ++ hexByte tag ++ " is outside the dynamic range (0x10..=0xEF)"
  | .tagInUse tag => "channel tag 0x" ++ hexByte tag ++ " is already bound to another feature"

/-- `dispatch_invoke_datagram`. -/
def dispatchInvokeDatagram (r : FeatureRegistry M) (onInvoke : M → InvocationContext → Except ModuleError Unit) (now : ℚ)
    (id peer : String) (params : Json) (tags : ChannelTagRegistry) :
    FeatureRegistry M × ChannelTagRegistry × Except ModuleError UInt8 :=
  match r.inner.lookup id with
  | none => (r, tags, .error (.internal ("no feature registered for `" ++ id ++ "`")))
  | some entry =>
    if entry.descriptor.kind ≠ .datagram then
      (r, tags, .error (.invalidParams ("`" ++ id ++ "` is a " ++ ChannelKind.debug entry.descriptor.kind ++
        " feature, not Datagram")))
    else
      let gated := r.quotas.tryConsumeDatagram now id peer (quotaParamsFor entry.descriptor)
      let r := { r with quotas := gated.1 }
      if !gated.2 then
        (r, tags, .error (.internal ("datagram quota exceeded for '" ++ id ++ "' from peer '" ++ peer ++ "'")))
      else
        match tags.bind id with
        | (tags, .error e) => (r, tags, .error (.internal ("tag allocation failed: " ++ tagErrorText e)))
        | (tags, .ok tag) =>
          match r.dispatchInvoke onInvoke id ⟨peer, params, some tag⟩ with
          | .ok () => (r, tags, .ok tag)
          | .error e => (r, (tags.release id).1, .error e)

/-- `clear_peer_quotas`. -/
def clearPeerQuotas (r : FeatureRegistry M) (peerId : String) : FeatureRegistry M := { r with quotas := r.quotas.clearPeer peerId }

/-- `clear_peer_outbound_quotas`. -/
def clearPeerOutboundQuotas (r : FeatureRegistry M) (peerId : String) : FeatureRegistry M :=
  { r with outboundQuotas := r.outboundQuotas.clearPeer peerId }

end FeatureRegistry

end DoubleSlash.Features
