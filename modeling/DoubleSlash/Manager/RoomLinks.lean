import DoubleSlash.Features.Brand
import DoubleSlash.Lib.Base64
import DoubleSlash.Protocol.JsonReader

/-!
# Room invite links

`invite.rs`: the link of a room invite, and reading what stands after `room#`.
-/

namespace DoubleSlash.Manager

open Codec JsonTree Protocol Text

/-- `ROOM_INVITE_SCHEMA`. -/
def roomInviteSchema : Nat := 1

/-- `RoomInvitePayload`, which has the arguments a link is built from as its fields. -/
structure RoomInvitePayload where
  supernodeId : String
  supernodeHint : String
  roomId : String
  roomName : String
  roomType : String
  inviteToken : String
  expiresAt : Nat
  spaceRoot : String
  spaceProof : String
  spaceGrant : String

/-- A Space field is put in as the object it is the text of. -/
def insertSpaceField (J : JsonReader) (fields : List (String × Json)) (field : String × String) : List (String × Json) :=
  if field.2 = "" then fields
  else
    match J.fromStr field.2 with
    | some v => insertKey field.1 v fields
    | none => fields

namespace RoomInvitePayload

/-- The fields of the payload without the Space fields. -/
def plainFields (p : RoomInvitePayload) : List (String × Json) :=
  [("expires_at", .int p.expiresAt), ("invite_token", .str p.inviteToken), ("room_id", .str p.roomId), ("room_name", .str p.roomName),
    ("room_type", .str p.roomType), ("supernode_hint", .str p.supernodeHint), ("supernode_id", .str p.supernodeId),
    ("v", .int roomInviteSchema)]

/-- The payload of a link. -/
def payload (J : JsonReader) (p : RoomInvitePayload) : Json :=
  .obj ([("space_root", p.spaceRoot), ("space_proof", p.spaceProof), ("space_grant", p.spaceGrant)].foldl (insertSpaceField J) p.plainFields)

/-- The payload as it stands in the link. -/
def encoded (J : JsonReader) (p : RoomInvitePayload) : String := b64urlEncode (p.payload J).toVec

end RoomInvitePayload

/-- `build_room_invite_url`. -/
def buildRoomInviteUrl (J : JsonReader) (p : RoomInvitePayload) : List Char :=
  Brand.mintInviteHttps "room".toList (p.encoded J).toList

/-- What `parse_room_invite` refuses a payload with. -/
inductive RoomInviteError where
  | tooLarge (bytes : Nat)
  | base64
  | json
  | unsupportedVersion (v : Nat)
  | missingSupernodeId
  | missingRoomId

/-- A text field, or the empty text. -/
def textField (payload : Json) (k : String) : String := ((payload.get k).bind Json.asStr).getD ""

/-- `Value::is_object`. -/
def isObject : Json → Bool
  | .obj _ => true
  | _ => false

/-- The text of a field that is an object, or the empty text. -/
def objectField (payload : Json) (k : String) : String :=
  (((payload.get k).filter isObject).map fun v => String.ofList v.text).getD ""

/-- `parse_room_invite`. -/
def parseRoomInvite (J : JsonReader) (encoded : String) : Except RoomInviteError RoomInvitePayload :=
  if 262144 < byteLen encoded.toList then .error (.tooLarge (byteLen encoded.toList))
  else
    match b64Groups (trimEndMatches '=' encoded).toList with
    | none => .error .base64
    | some jsonBytes =>
      match J.fromSlice jsonBytes with
      | none => .error .json
      | some payload =>
        match ((payload.get "v").bind Json.asU64).filter fun v => decide (roomInviteSchema < v) with
        | some v => .error (.unsupportedVersion v)
        | none =>
          if textField payload "supernode_id" = "" then .error .missingSupernodeId
          else if textField payload "room_id" = "" then .error .missingRoomId
          else
            .ok
              { supernodeId := textField payload "supernode_id"
                supernodeHint := textField payload "supernode_hint"
                roomId := textField payload "room_id"
                roomName := textField payload "room_name"
                roomType := if textField payload "room_type" = "" then "private" else textField payload "room_type"
                inviteToken := textField payload "invite_token"
                expiresAt := ((payload.get "expires_at").bind Json.asU64).getD 0
                spaceRoot := objectField payload "space_root"
                spaceProof := objectField payload "space_proof"
                spaceGrant := objectField payload "space_grant" }

end DoubleSlash.Manager
