import Barbarossa.Client.Calls
import Barbarossa.Protocol.Details

/-!
# The operation of the program

`src/main.cpp:72`: the one operation that `main` registers. It greets the name in its arguments, or
the world when they have none.
-/

namespace Barbarossa
open Barbarossa.Base

namespace Program

/-- The name that the operation is registered under. -/
def sayHelloName : Bytes := utf8 "say_hello"

/-- `arguments.find(key)`; a value that is no object has no members. -/
def find (key : Bytes) : Json → Option Json
  | .object members => Protocol.member? key members
  | _ => none

/-- The object that the operation returns. -/
def greeting (text : Bytes) : Json := .object [(sayHelloName, .string text)]

/-- `main.cpp:72`. -/
def sayHello (arguments : Json) : Except Exception Json :=
  match find (utf8 "name") arguments with
  | some name =>
    match name.toString? with
    | some name => .ok (greeting (utf8 "Hello " ++ name ++ utf8 "!"))
    | none => .error (.typeError 302)
  | none => .ok (greeting (utf8 "Hello World!"))

end Program
end Barbarossa
