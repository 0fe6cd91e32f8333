import LineReview.JsonValue
import LineReview.Path
import LineReview.Timer
import LineReview.Trace.Event

/-!
# Trace formats

Events are written one per line, either for a reader or as JSON objects. The
name of the destination chooses the format.
-/

namespace LineReview.Trace

inductive Format where
  | text
  | objects
deriving DecidableEq, Repr

namespace Format

/-- What follows the last dot of the last name, the dot included. -/
def extension (p : Text) : Text :=
  let name := (p.reverse.takeWhile (· != 47))
  if name.contains 46 then (name.takeWhile (· != 46)).reverse |> (46 :: ·) else []

/-- Destinations that end in `.ndjson` or `.jsonl` get objects. -/
def ofPath (p : Text) : Format :=
  let e := Text.lowerWord (extension p)
  if e = bytes ".ndjson" || e = bytes ".jsonl" then objects else text

end Format

/-- Time, number, kind, scope and name, then what else there is to say. -/
def Event.line (e : Event) : Text :=
  e.time.clockMillis ++ [32] ++ Timer.padLeft 5 (Text.decimal e.seq) ++ [32]
    ++ Timer.padRight 9 (bytes e.kind.name) ++ [32] ++ Timer.padRight 4 (bytes e.scope.name)
    ++ [32] ++ e.name
    ++ (if e.kind = .finish then 32 :: e.elapsed.toMicrosecond.text else [])
    ++ (if e.failure then bytes " FAILED" else [])
    ++ (if e.detail = [] then [] else bytes " (" ++ e.detail ++ bytes ")")
    ++ (sortedFields e.fields).flatMap (fun (k, v) => 32 :: k ++ 61 :: v)
    ++ [10]

def Event.object (e : Event) : Text :=
  let optional (b : Bool) (k : Text) (v : Text) : Text :=
    if b then 44 :: JsonValue.quote k ++ 58 :: v else []
  let ms := Binary.ofBits e.elapsed.milliseconds.toBits
  bytes "\x7b\"time\":" ++ JsonValue.quote e.time.stamp
    ++ bytes ",\"seq\":" ++ Text.decimal e.seq
    ++ bytes ",\"kind\":" ++ JsonValue.quote (bytes e.kind.name)
    ++ bytes ",\"scope\":" ++ JsonValue.quote (bytes e.scope.name)
    ++ optional (e.span != 0) (bytes "span") (Text.decimal e.span)
    ++ optional (e.parent != 0) (bytes "parent") (Text.decimal e.parent)
    ++ bytes ",\"name\":" ++ JsonValue.quote e.name
    ++ optional (e.detail != []) (bytes "detail") (JsonValue.quote e.detail)
    ++ optional (ms.mantissa != 0) (bytes "elapsed_ms") ms.text
    ++ optional (e.fields != []) (bytes "fields")
        (123 :: Text.joinWith [44] ((sortedFields e.fields).map fun (k, v) =>
          JsonValue.quote k ++ 58 :: JsonValue.quote v) ++ [125])
    ++ optional e.failure (bytes "failure") (bytes "true")
    ++ bytes "\x7d\n"

def Event.encode (f : Format) (e : Event) : Text :=
  match f with
  | .text => e.line
  | .objects => e.object

end LineReview.Trace
