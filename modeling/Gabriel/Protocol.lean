import Mathlib.Data.Finset.Defs

/-!
# Messages

The messages of `gabriel.proto`.  A `oneof` is an inductive type with a constructor for the unset case where the
code reads an unset field (protobuf then returns the default message).  The repeated fields that the server
fills from a Python `set` are finite sets: their order carries no information.
-/

namespace Gabriel

/-- `google.protobuf.Any`. -/
structure AnyProto where
  typeUrl : String := ""
  value : List UInt8 := []
  deriving DecidableEq, Repr

inductive PayloadType
  | unspecified | text | image | audio | video | other
  deriving DecidableEq, Repr

/-- The `oneof payload` of an `InputFrame`. -/
inductive FramePayload
  | unset
  | stringPayload (payload : String)
  | bytePayload (payload : List UInt8)
  | anyPayload (payload : AnyProto)
  deriving DecidableEq, Repr

structure InputFrame where
  payloadType : PayloadType := .unspecified
  payload : FramePayload := .unset
  deriving DecidableEq, Repr

/-- `FromClient.Input`. -/
structure Input where
  frameId : Int := 0
  producerId : String := ""
  targetEngineIds : List String := []
  inputFrame : InputFrame := {}
  deriving DecidableEq, Repr

/-- `FromClient`; a `Registration` carries the client's `client_info`. -/
inductive FromClient
  | unset
  | input (input : Input)
  | registration (clientInfo : AnyProto)
  deriving DecidableEq, Repr

/-- The field access `from_client.input`: the default message unless the field is set. -/
def FromClient.asInput : FromClient → Input
  | .input i => i
  | _ => {}

/-- `from_client.WhichOneof("message_type") == "registration"`. -/
def FromClient.isRegistration : FromClient → Bool
  | .registration _ => true
  | _ => false

/-- `StatusCode`.  A field of an enumeration may hold a number that the enumeration does not name. -/
inductive StatusCode
  | unspecified | success | unspecifiedError | engineError | wrongInputFormat | noEngineForInput | noTokens
  | serverDroppedFrame
  | unrecognized (number : Int) (h : number < 0 ∨ 7 < number)
  deriving DecidableEq, Repr

structure Status where
  code : StatusCode := .unspecified
  message : String := ""
  deriving DecidableEq, Repr

/-- The `oneof payload` of a `Result`. -/
inductive ResultPayload
  | unset
  | stringResult (payload : String)
  | bytesResult (payload : List UInt8)
  | anyResult (payload : AnyProto)
  deriving DecidableEq, Repr

structure Result where
  status : Status := {}
  payload : ResultPayload := .unset
  targetEngineId : String := ""
  frameId : Int := 0
  deriving DecidableEq, Repr

/-- `ToClient.ResultWrapper`. -/
structure ResultWrapper where
  producerId : String
  returnToken : Bool
  result : Result
  deriving DecidableEq, Repr

inductive ToClient
  | registered (numTokensPerProducer : Nat) (engineIds : Finset String)
  | resultWrapper (wrapper : ResultWrapper)
  | engineIdsUpdate (engineIds : Finset String)
  deriving DecidableEq

inductive FromEngine
  | unset
  | register (engineId : String) (allResponsesRequired : Bool)
  | result (result : Result)
  deriving DecidableEq, Repr

/-- The field access `from_engine.result`. -/
def FromEngine.asResult : FromEngine → Result
  | .result r => r
  | _ => {}

/-- `ToEngine`. -/
structure ToEngine where
  inputFrame : InputFrame
  clientInfo : AnyProto
  deriving DecidableEq, Repr

end Gabriel
