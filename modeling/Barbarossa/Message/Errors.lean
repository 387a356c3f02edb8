import Barbarossa.Base.Json

/-!
# Exceptions and error texts

`include/barbarossa/errors.hpp`, with the standard and third-party exceptions that the
modelled code can throw. An exception copied through `std::make_exception_ptr(e)` keeps
only the static type of `e`.
-/

namespace Barbarossa
open Barbarossa.Base

namespace ErrorMessages

/-- `include/barbarossa/errors.hpp:14`. -/
def transportConnectionFailed : Bytes := utf8 "transport failed to connect"
def transportAlreadyConnected : Bytes := utf8 "transport already connected"
def transportAlreadyDisconnected : Bytes := utf8 "transport already disconnected"
def transportHandlerAlreadyAttached : Bytes := utf8 "transport handler already attached"
def transportHandlerAlreadyDetached : Bytes := utf8 "transport handler already detached"
def sessionAlreadyJoined : Bytes := utf8 "session already joined"
def sessionNotJoined : Bytes := utf8 "session not joined"
def sessionNotAttached : Bytes := utf8 "session not attached"
def sessionTransportAlreadyDetached : Bytes := utf8 "session transport already detached"
def sessionTransportAlreadyAttached : Bytes := utf8 "session transport already attached"
def invalidMessageStructure : Bytes := utf8 "invalid message structure"

end ErrorMessages

/-- The codes of `std::future_error` that occur. -/
inductive FutureErrc where
  | futureAlreadyRetrieved
  | promiseAlreadySatisfied
  deriving DecidableEq, Repr

/-- An exception object: its dynamic class and the text it was built from. -/
inductive Exception where
  /-- `std::exception` itself, as a sliced copy. -/
  | exception
  | logicError (what : Bytes)
  | outOfRange (what : Bytes)
  | futureError (code : FutureErrc)
  | systemError (what : Bytes)
  /-- `nlohmann::json::type_error`. -/
  | typeError (id : Nat)
  /-- `nlohmann::json::parse_error`. -/
  | parseError (id : Nat)
  /-- `nlohmann::json::out_of_range`. -/
  | jsonOutOfRange (id : Nat)
  | networkError (message : Bytes)
  | noTransportError
  | timeoutError
  | protocolError (message : Bytes)
  | noSessionError
  | abortError (message : Bytes)
  /-- Whatever a registered operation throws. -/
  | foreign (what : Bytes)
  deriving DecidableEq, Repr

namespace Exception

/-- Caught by `catch (const NetworkError& e)`; `include/barbarossa/errors.hpp:40,84,89`. -/
def isNetworkError : Exception → Bool
  | .networkError _ | .noTransportError | .timeoutError => true
  | _ => false

/-- Caught by `catch (std::exception& e)`. -/
def isException : Exception → Bool
  | .foreign _ => false
  | _ => true

/-- The `message_` member of a `NetworkError`, `ProtocolError` or `AbortError`. -/
def message : Exception → Bytes
  | .networkError m | .protocolError m | .abortError m => m
  | .noTransportError => ErrorMessages.sessionNotAttached
  | .noSessionError => ErrorMessages.sessionNotJoined
  | .timeoutError => utf8 "timeout"
  | _ => []

/-- `std::make_exception_ptr(e)` with `e` of static type `std::exception`. -/
def copyException (_ : Exception) : Exception := .exception

/-- `std::make_exception_ptr(e)` with `e` of static type `NetworkError`. -/
def copyNetworkError (e : Exception) : Exception := .networkError e.message

end Exception
end Barbarossa
