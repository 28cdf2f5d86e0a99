import DoubleSlash.Lib.Assoc
import DoubleSlash.Lib.TokenBucket
import DoubleSlash.Protocol.JsonValue
import Mathlib.Algebra.Order.Ring.Rat

/-!
# Quotas

`quota.rs` of the features crate: the rates in a descriptor's params, and a bucket of bytes and one of datagrams for each feature and
peer. Rates, tokens and times are exact rationals, where the code has floats.
-/

namespace DoubleSlash.Features

open Assoc Protocol TokenBucket

/-- The digits of a text as a number; what is not a digit does not count. -/
def digitsValue (cs : List Char) : Nat := cs.foldl (fun n c => if c.isDigit then 10 * n + (c.toNat - 48) else n) 0

/-- The value of the text of a number: sign, digits, fraction, exponent. -/
def floatValue (text : String) : ℚ :=
  let cs := text.toList
  let isExponent (c : Char) : Bool := c == 'e' || c == 'E'
  let mantissa := cs.takeWhile fun c => !isExponent c
  let exponent := (cs.dropWhile fun c => !isExponent c).tail
  let fraction := (mantissa.dropWhile (· != '.')).tail
  let size : ℚ := digitsValue mantissa / 10 ^ fraction.length
  let scale : ℚ := 10 ^ digitsValue exponent
  let scaled := if exponent.head? = some '-' then size / scale else size * scale
  if mantissa.head? = some '-' then -scaled else scaled

/-- `Value::as_f64`. -/
def asF64 : Json → Option ℚ
  | .int n => some n
  | .float text => some (floatValue text)
  | _ => none

/-- `DEFAULT_BYTES_PER_SEC`. -/
def defaultBytesPerSec : ℚ := 65536

/-- `DEFAULT_DATAGRAMS_PER_SEC`. -/
def defaultDatagramsPerSec : ℚ := 256

/-- `QuotaParams`. A rate of zero is no limit. -/
structure QuotaParams where
  bytesPerSec : ℚ
  datagramsPerSec : ℚ
  deriving DecidableEq

namespace QuotaParams

/-- The rate of one key. -/
def readRate (params : Json) (key : String) (default : ℚ) : ℚ :=
  let raw := ((params.get key).bind asF64).getD default
  if raw = 0 then 0 else max raw 1

/-- `QuotaParams::read`. -/
def read (params : Json) (bytesKey datagramsKey : String) (defaultBytes defaultDatagrams : ℚ) : QuotaParams where
  bytesPerSec := readRate params bytesKey defaultBytes
  datagramsPerSec := readRate params datagramsKey defaultDatagrams

/-- `from_params`. -/
def fromParams (params : Json) : QuotaParams :=
  read params "quota_bytes_per_sec" "quota_datagrams_per_sec" defaultBytesPerSec defaultDatagramsPerSec

/-- `from_params_outbound`. -/
def fromParamsOutbound (params : Json) : QuotaParams :=
  let inbound := fromParams params
  read params "quota_bytes_per_sec_outbound" "quota_datagrams_per_sec_outbound" inbound.bytesPerSec inbound.datagramsPerSec

/-- `is_unbounded`. -/
def isUnbounded (p : QuotaParams) : Bool := p.bytesPerSec == 0 && p.datagramsPerSec == 0

end QuotaParams

/-- `QuotaState`. -/
structure QuotaState where
  bytesTokens : ℚ
  datagramTokens : ℚ
  lastRefill : ℚ
  params : QuotaParams
  deriving DecidableEq

namespace QuotaState

/-- `QuotaState::new`. -/
def new (now : ℚ) (params : QuotaParams) : QuotaState := ⟨params.bytesPerSec, params.datagramsPerSec, now, params⟩

/-- `refill`. A clock that goes back does not count. -/
def refill (s : QuotaState) (now : ℚ) : QuotaState :=
  let elapsed := max 0 (now - s.lastRefill)
  { s with
    lastRefill := now
    bytesTokens := if 0 < s.params.bytesPerSec then min (s.bytesTokens + s.params.bytesPerSec * elapsed) s.params.bytesPerSec
      else s.bytesTokens
    datagramTokens := if 0 < s.params.datagramsPerSec then
        min (s.datagramTokens + s.params.datagramsPerSec * elapsed) s.params.datagramsPerSec
      else s.datagramTokens }

/-- What an allowed message takes out. -/
def take (s : QuotaState) (byteCount : Nat) : QuotaState :=
  { s with
    bytesTokens := if 0 < s.params.bytesPerSec then s.bytesTokens - byteCount else s.bytesTokens
    datagramTokens := if 0 < s.params.datagramsPerSec then s.datagramTokens - 1 else s.datagramTokens }

/-- There is enough of both for a message. -/
def affords (s : QuotaState) (byteCount : Nat) : Bool :=
  (s.params.bytesPerSec == 0 || decide ((byteCount : ℚ) ≤ s.bytesTokens)) &&
    (s.params.datagramsPerSec == 0 || decide (1 ≤ s.datagramTokens))

/-- `try_consume`. -/
def tryConsume (s : QuotaState) (now : ℚ) (byteCount : Nat) : QuotaState × Bool :=
  if s.params.isUnbounded then (s, true)
  else if (s.refill now).affords byteCount then ((s.refill now).take byteCount, true)
  else (s.refill now, false)

/-- `try_consume_datagram`. -/
def tryConsumeDatagram (s : QuotaState) (now : ℚ) : QuotaState × Bool :=
  if s.params.datagramsPerSec = 0 then (s, true)
  else if 1 ≤ (s.refill now).datagramTokens then
    ({ s.refill now with datagramTokens := (s.refill now).datagramTokens - 1 }, true)
  else (s.refill now, false)

end QuotaState

/-- `QuotaRegistry`. -/
structure QuotaRegistry where
  states : HashMap (String × String) QuotaState

namespace QuotaRegistry

/-- The bucket of a feature and a peer, made with the given rates if there is none. -/
def stateFor (q : QuotaRegistry) (now : ℚ) (featureId peerId : String) (params : QuotaParams) : QuotaState :=
  (q.states.lookup (featureId, peerId)).getD (QuotaState.new now params)

/-- `try_consume`. -/
def tryConsume (q : QuotaRegistry) (now : ℚ) (featureId peerId : String) (byteCount : Nat) (params : QuotaParams) :
    QuotaRegistry × Bool :=
  let consumed := (q.stateFor now featureId peerId params).tryConsume now byteCount
  (⟨q.states.insert (featureId, peerId) consumed.1⟩, consumed.2)

/-- `try_consume_datagram`. -/
def tryConsumeDatagram (q : QuotaRegistry) (now : ℚ) (featureId peerId : String) (params : QuotaParams) : QuotaRegistry × Bool :=
  let consumed := (q.stateFor now featureId peerId params).tryConsumeDatagram now
  (⟨q.states.insert (featureId, peerId) consumed.1⟩, consumed.2)

/-- `clear_peer`. -/
def clearPeer (q : QuotaRegistry) (peerId : String) : QuotaRegistry := ⟨retain q.states fun key _ => key.2 != peerId⟩

end QuotaRegistry

end DoubleSlash.Features
