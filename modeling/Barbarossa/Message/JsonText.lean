import Barbarossa.Message.Errors

/-!
# JSON texts

`nlohmann::json`'s `dump` and `parse`, which are not part of the repository: two functions,
and what the code relies on about them.
-/

namespace Barbarossa
open Barbarossa.Base

/-- The text of a value that `dump` accepts, and the value of a text or the `parse_error`. -/
structure JsonText where
  dump : Json → Bytes
  parse : Bytes → Except Exception Json

namespace JsonText

/-- The values in `kept` are the ones that `dump` accepts without loss: they are parsed back from
their text, and every parsed value is one. -/
structure Lossless (text : JsonText) (kept : Json → Prop) : Prop where
  dumpable : ∀ v, kept v → v.dumpable = true
  round : ∀ v, kept v → text.parse (text.dump v) = .ok v
  parsed : ∀ payload v, text.parse payload = .ok v → kept v

/-- The text of one value, which is all that is ever parsed; any other text breaks off inside a
token. -/
def single (v : Json) (t : Bytes) : JsonText where
  dump _ := t
  parse payload := if payload = t then .ok v else .error (.parseError 101)

/-- A single dumpable value is kept. -/
theorem lossless_single {v : Json} (t : Bytes) (hv : v.dumpable = true) :
    (single v t).Lossless (· = v) := by
  constructor
  · rintro _ rfl
    exact hv
  · rintro _ rfl
    simp [single]
  · intro payload w hw
    simp only [single] at hw
    split at hw
    · cases hw
      rfl
    · cases hw

end JsonText
end Barbarossa
