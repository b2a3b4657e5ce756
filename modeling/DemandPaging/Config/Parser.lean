import DemandPaging.Config
import DemandPaging.HostPath
import DemandPaging.Text.Blank
import DemandPaging.Text.Decimal
import DemandPaging.Text.Lines

/-!
# Configuration files

A configuration file has a setting on each line: a key, an equals sign with blanks or tabs around
it, and a value. A number sign starts a comment, and a line with nothing else is skipped. The
settings are made one after the other on top of the defaults, so the last one for a key counts; the
first line that is no setting decides the error.
-/

namespace DemandPaging.Config

/-- What a line can set. -/
inductive Key where
  | frames
  | cacheSize
  | pageSize
  | swapSlots
  | swapPath
  | stackPages
  | replacement
  | seed
deriving DecidableEq

/-- The key with a name. -/
def Key.ofName (name : String) : Option Key :=
  match name with
  | "machine.frames" => some .frames
  | "machine.tlb_size" => some .cacheSize
  | "machine.page_size" => some .pageSize
  | "swap.slots" => some .swapSlots
  | "swap.path" => some .swapPath
  | "process.stack_pages" => some .stackPages
  | "vm.replacement" => some .replacement
  | "vm.seed" => some .seed
  | _ => none

/-- A key with a value it can have. -/
inductive Setting where
  | frames (n : Nat)
  | cacheSize (n : Nat)
  | pageSize (n : Nat)
  | swapSlots (n : Nat)
  | swapPath (path : String)
  | stackPages (n : Nat)
  | replacement (kind : PolicyKind)
  | seed (word : Word)
deriving DecidableEq

/-- The key of a setting. -/
def Setting.key : Setting → Key
  | frames _ => .frames
  | cacheSize _ => .cacheSize
  | pageSize _ => .pageSize
  | swapSlots _ => .swapSlots
  | swapPath _ => .swapPath
  | stackPages _ => .stackPages
  | replacement _ => .replacement
  | seed _ => .seed

/-- The policy with a name. -/
def policyOfName (name : String) : Option PolicyKind :=
  match name with
  | "clock" => some .clock
  | "random" => some .random
  | _ => none

/-- The setting that gives a key the value written as `value`. -/
def Key.setting (key : Key) (value : List Char) : Option Setting :=
  match key with
  | .frames => (Text.readNumber value).map .frames
  | .cacheSize => (Text.readNumber value).map .cacheSize
  | .pageSize => (Text.readNumber value).map .pageSize
  | .swapSlots => (Text.readNumber value).map .swapSlots
  | .swapPath => if value.isEmpty then none else some (.swapPath (String.ofList value))
  | .stackPages => (Text.readNumber value).map .stackPages
  | .replacement => (policyOfName (String.ofList value)).map .replacement
  | .seed => (Text.readNumber value).map fun n => .seed (BitVec.ofNat 64 n)

/-- The configuration with one setting made. -/
def assign (c : Config) : Setting → Config
  | .frames n => { c with frames := n }
  | .cacheSize n => { c with cacheSize := n }
  | .pageSize n => { c with pageSize := n }
  | .swapSlots n => { c with swapSlots := n }
  | .swapPath path => { c with swapPath := some path }
  | .stackPages n => { c with stackPages := n }
  | .replacement kind => { c with replacement := kind }
  | .seed word => { c with seed := word }

/-- Whether a character may stand in a key. -/
def isKeyChar (c : Char) : Bool := c.isAlphanum || c == '.' || c == '_'

/-- Whether a character may stand beside the equals sign. -/
def isGap (c : Char) : Bool := c == ' ' || c == '\t'

/-- The part of a line before its comment, trimmed. -/
def lineContent (line : List Char) : List Char := Text.trim (line.takeWhile (· != '#'))

/-- The key and the value of a line's content: the longest run of key characters, which has to
hold one, then the equals sign, then the rest. -/
def splitContent (content : List Char) : Option (List Char × List Char) :=
  let key := content.takeWhile isKeyChar
  match (content.dropWhile isKeyChar).dropWhile isGap with
  | '=' :: rest => if key.isEmpty then none else some (key, Text.trimEnd (rest.dropWhile isGap))
  | _ => none

/-- The setting that the content of line `number` makes. -/
def readContent (number : Nat) (content : List Char) : Except ConfigError Setting :=
  match splitContent content with
  | none => .error (.malformedLine number)
  | some (name, value) =>
      match Key.ofName (String.ofList name) with
      | none => .error (.unknownKey number (String.ofList name))
      | some key =>
          match key.setting value with
          | none => .error (.invalidValue number (String.ofList name) (String.ofList value))
          | some setting => .ok setting

/-- The settings of lines counted from `number`, up to the first line that is none. -/
def readLines : Nat → List (List Char) → Except ConfigError (List Setting)
  | _, [] => .ok []
  | number, line :: rest =>
      if (lineContent line).isEmpty then readLines (number + 1) rest
      else do
        let setting ← readContent number (lineContent line)
        let settings ← readLines (number + 1) rest
        .ok (setting :: settings)

/-- The configuration that a text describes, checked. -/
def parse (text : String) : Except ConfigError Config := do
  let settings ← readLines 1 (Text.lines text.toList)
  let config : Config := settings.foldl assign {}
  config.validate
  .ok config

/-- The configuration in a file with these bytes. -/
def ofBytes (bytes : List UInt8) : Except ConfigError Config :=
  match String.fromUTF8? (ByteArray.mk bytes.toArray) with
  | none => .error (.io .notText)
  | some text => parse text

/-- The configuration in the host's file with this path. -/
def load (path : String) : Except ConfigError Config :=
  match HostPath.read path with
  | .error cause => .error (.io cause)
  | .ok bytes => ofBytes bytes

end DemandPaging.Config
