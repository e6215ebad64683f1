import Nexad.Base.Interleave
import Nexad.Base.Lines
import Nexad.Base.Text
import Nexad.Base.Utf8
import Nexad.Core.Models

/-!
# Following a log

`LogTailer::tail` reads a log file from the start, takes its length, serves
the last lines it has read and then reads on from the length it took. Each of
these is a step of its own, and the file may grow before any of them. The
loop that polls the file never ends; here it is given a number of polls.
-/

namespace Nexad.Runtime

open Interleave

/-- What the tailer asks of its environment: the file, a reader that stands at
an offset of it, the consumer of the stream and the timer. -/
inductive TailOp where
  | exists (path : String)
  | open (path : String)
  | readToEnd
  | metadata (path : String)
  | seek (offset : Nat)
  /-- The bytes from the reader's offset up to a newline or the end. -/
  | readUntil (offset : Nat)
  | yield (item : Except NexaError String)
  | sleep (millis : Nat)

/-- A file's metadata are its length. -/
abbrev tailSig : Sig where
  Op := TailOp
  Ans
    | .exists _ => Bool
    | .open _ | .seek _ => Except String Unit
    | .readToEnd | .readUntil _ => Except String (List UInt8)
    | .metadata _ => Except String Nat
    | .yield _ | .sleep _ => Unit

/-- How a tailer ends: refused, with an error in its stream, or out of polls. -/
inductive TailEnd where
  | refused (e : NexaError)
  | ended
  | following
  deriving DecidableEq, Repr

/-- `'\n'` as a byte. -/
def newline : UInt8 := 10

-- What the readers say of bytes that are no text.
variable (notUtf8 : String)

/-- The bytes of one line as a text. -/
def readText (bytes : List UInt8) : Except String String :=
  match Utf8.decode bytes with
  | some text => .ok text
  | none => .error notUtf8

/-- What `Lines::next_line` makes of a line: its newline goes, and a carriage
return before it. -/
def chomp (text : String) : String :=
  let cs := text.toList
  if cs.getLast? = some '\n' then
    let line := cs.dropLast
    String.ofList (if line.getLast? = some '\r' then line.dropLast else line)
  else text

/-- `BufReader::lines` to the end. -/
def readLines (bytes : List UInt8) : Except String (List String) :=
  (Lines.pieces newline bytes).mapM fun piece => (readText notUtf8 piece).map chomp

/-- `buf.trim_end_matches('\n').trim_end_matches('\r')`. -/
def trimLine (buf : String) : String :=
  String.ofList (Text.trimEndMatches '\r' (Text.trimEndMatches '\n' buf.toList))

namespace LogTailer

/-- An error in the stream, which ends it. -/
def fail (e : String) : Prog tailSig TailEnd :=
  .call (.yield (.error (.runtime e))) fun _ => .ret .ended

/-- The loop of `tail`, from an offset. -/
def follow : Nat → Nat → Prog tailSig TailEnd
  | 0, _ => .ret .following
  | polls + 1, offset => .call (.readUntil offset) fun
    | .error e => fail e
    | .ok bytes => match readText notUtf8 bytes with
      | .error e => fail e
      | .ok buf =>
        if bytes = [] then .call (.sleep 250) fun _ => follow polls offset
        else
          let line := trimLine buf
          if line = "" then follow polls (offset + bytes.length)
          else .call (.yield (.ok line)) fun _ => follow polls (offset + bytes.length)

/-- The history, line by line. -/
def serve (rest : Prog tailSig TailEnd) : List String → Prog tailSig TailEnd
  | [] => rest
  | line :: more => .call (.yield (.ok line)) fun _ => serve rest more

/-- The stream that `tail` returns. -/
def stream (path : String) (history : List String) (byteOffset polls : Nat) :
    Prog tailSig TailEnd :=
  serve (.call (.open path) fun
    | .error e => fail e
    | .ok () => .call (.seek byteOffset) fun
      | .error e => fail e
      | .ok () => follow notUtf8 polls byteOffset) history

/-- `LogTailer::read_all_inner`, and what is done with what it returns. -/
def readAllInner {α : Type} (path : String)
    (rest : Except NexaError (List String) → Prog tailSig α) : Prog tailSig α :=
  .call (.open path) fun
    | .error e => rest (.error (.runtime s!"{path}: {e}"))
    | .ok () => .call .readToEnd fun
      | .error e => rest (.error (.runtime e))
      | .ok bytes => match readLines notUtf8 bytes with
        | .error e => rest (.error (.runtime e))
        | .ok lines => rest (.ok lines)

/-- How many lines of history are asked for. -/
def historyLength (tail : Option UInt64) : Nat := (tail.map UInt64.toNat).getD 100

/-- `tail` once it has read the lines that there are. -/
def afterHistory (path : String) (n polls : Nat) (existing : List String) : Prog tailSig TailEnd :=
  let skip := existing.length - n
  let history := existing.drop skip
  .call (.metadata path) fun
    | .error e => .ret (.refused (.runtime e))
    | .ok (byteOffset : Nat) => stream notUtf8 path history byteOffset polls

/-- `LogTailer::tail`, and its stream. -/
def tail (path : String) (tail : Option UInt64) (polls : Nat) : Prog tailSig TailEnd :=
  .call (.exists path) fun
    | false => .ret (.refused (.runtime s!"log file not found: {path}"))
    | true => readAllInner notUtf8 path fun
      | .error e => .ret (.refused e)
      | .ok existing => afterHistory notUtf8 path (historyLength tail) polls existing

end LogTailer

/-! ## Tailers of one file -/

/-- A request to tail the file. -/
structure TailRequest where
  tail : Option UInt64
  polls : Nat
  deriving DecidableEq, Repr

/-- How a file answers that is there and can be read. -/
inductive TailAnswered {S : Type} (bytes : S → List UInt8) (s : S) :
    (op : TailOp) → tailSig.Ans op → S → Prop
  | exists (path : String) : TailAnswered bytes s (.exists path) true s
  | open (path : String) : TailAnswered bytes s (.open path) (.ok ()) s
  | readToEnd : TailAnswered bytes s .readToEnd (.ok (bytes s)) s
  | metadata (path : String) : TailAnswered bytes s (.metadata path) (.ok (bytes s).length) s
  | seek (offset : Nat) : TailAnswered bytes s (.seek offset) (.ok ()) s
  | readUntil (offset : Nat) : TailAnswered bytes s (.readUntil offset)
      (.ok ((Lines.pieces newline ((bytes s).drop offset)).headD [])) s
  | yield (item : Except NexaError String) : TailAnswered bytes s (.yield item) () s
  | sleep (millis : Nat) : TailAnswered bytes s (.sleep millis) () s

/-- Any number of tailers of one file, which grows as `grows` says. -/
def tailing {S : Type} (path : String) (bytes : S → List UInt8) (grows : S → S → Prop) :
    Machine tailSig S TailRequest TailEnd where
  code := fun req => LogTailer.tail notUtf8 path req.tail req.polls
  arrives := fun _ => True
  answer := TailAnswered bytes
  env := grows

end Nexad.Runtime
