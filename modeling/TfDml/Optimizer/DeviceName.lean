import TfDml.Optimizer.GraphView

/-! # Device names

`ParseFullName` reads the parts of a device name in any order and any number of times; the
last one of a kind counts. A node is on DML when its device type names a GPU.
-/

namespace TfDml.Optimizer

abbrev Text := List Char

/-- A part that the name does not fix is `none`. -/
structure ParsedName where
  job : Option Text := none
  replica : Option Int := none
  task : Option Int := none
  type : Option Text := none
  id : Option Int := none
  deriving DecidableEq

def isAlpha (c : Char) : Bool := ('a' ≤ c && c ≤ 'z') || ('A' ≤ c && c ≤ 'Z')

def isAlphaNumOrUnderscore (c : Char) : Bool := isAlpha c || ('0' ≤ c && c ≤ '9') || c = '_'

/-- The digits at the front, as a `uint64_t`; nothing on overflow. -/
def leadingDigits (value : Nat) : Text → Option (Nat × Text)
  | [] => some (value, [])
  | c :: rest =>
    if '0' ≤ c ∧ c ≤ '9' then
      let newValue := (value * 10 + (c.toNat - '0'.toNat)) % 2 ^ 64
      if newValue / 8 < value then none else leadingDigits newValue rest
    else some (value, c :: rest)

def consumeNumber (text : Text) : Option (Int × Text) := do
  let (value, rest) ← leadingDigits 0 text
  if rest.length < text.length then some (toInt32 value, rest) else none

def consumeName (terminators : Text) (text : Text) : Option (Text × Text) :=
  let name := text.takeWhile (· ∉ terminators)
  match text with
  | [] => none
  | c :: _ =>
    if isAlpha c && name.all isAlphaNumOrUnderscore then
      some (name, text.dropWhile (· ∉ terminators))
    else none

def consumeJobName : Text → Option (Text × Text) := consumeName ['/']

def consumeDeviceType : Text → Option (Text × Text) := consumeName ['/', ':']

def consumeValue {α : Type} (read : Text → Option (α × Text)) (text : Text) :
    Option (Option α × Text) :=
  match ['*'].isPrefixOf? text with
  | some rest => some (none, rest)
  | none => (read text).map fun (value, rest) => (some value, rest)

/-- A part with a tag, if the text starts with it. The part so far is kept otherwise. -/
def consumePart {α : Type} (tag : String) (read : Text → Option (α × Text)) (kept : Option α)
    (text : Text) : Option (Option α × Text) :=
  match tag.toList.isPrefixOf? text with
  | some rest => consumeValue read rest
  | none => some (kept, text)

/-- The device type, with an id only if there is one. -/
def consumeDevice (name : ParsedName) (text : Text) : Option (ParsedName × Text) :=
  match "/device:".toList.isPrefixOf? text with
  | none => some (name, text)
  | some rest => do
    let (type, rest) ← consumeValue consumeDeviceType rest
    let (id, rest) ← consumePart ":" consumeNumber none rest
    some ({ name with type := type, id := id }, rest)

/-- The legacy naming of a device type, in lower or upper case. -/
def consumeLegacy (lower upper : String) (type : String) (name : ParsedName) (text : Text) :
    Option (ParsedName × Text) :=
  match (lower.toList.isPrefixOf? text).or (upper.toList.isPrefixOf? text) with
  | none => some (name, text)
  | some rest => do
    let (id, rest) ← consumeValue consumeNumber rest
    some ({ name with type := some type.toList, id := id }, rest)

def consumeParts (name : ParsedName) (text : Text) : Option (ParsedName × Text) := do
  let (job, text) ← consumePart "/job:" consumeJobName name.job text
  let (replica, text) ← consumePart "/replica:" consumeNumber name.replica text
  let (task, text) ← consumePart "/task:" consumeNumber name.task text
  let name := { name with job := job, replica := replica, task := task }
  let (name, text) ← consumeDevice name text
  let (name, text) ← consumeLegacy "/cpu:" "/CPU:" "CPU" name text
  consumeLegacy "/gpu:" "/GPU:" "GPU" name text

/-- Passes over the rest of the name, each of which must make progress. -/
def parseLoop : Nat → ParsedName → Text → Option ParsedName
  | _, name, [] => some name
  | 0, _, _ :: _ => none
  | fuel + 1, name, text@(_ :: _) =>
    match consumeParts name text with
    | some (name, rest) => if rest.length < text.length then parseLoop fuel name rest else none
    | none => none

def parseFullName (fullName : String) : Option ParsedName :=
  if fullName = "/" then some {} else parseLoop fullName.length {} fullName.toList

def intToText (n : Int) : Text :=
  if n < 0 then '-' :: Nat.toDigits 10 n.natAbs else Nat.toDigits 10 n.natAbs

/-- The task and the device, of a name that fixes the type and the id of the device. -/
def splitDeviceName (name : String) : Option (Text × Text) := do
  let parsed ← parseFullName name
  let type ← parsed.type
  let id ← parsed.id
  let job := parsed.job.elim [] fun job => "/job:".toList ++ job
  let replica := parsed.replica.elim [] fun replica => "/replica:".toList ++ intToText replica
  let task := parsed.task.elim [] fun task => "/task:".toList ++ intToText task
  some (job ++ replica ++ task, type ++ ':' :: intToText id)

def isOnDml (node : NodeDef) : Bool :=
  match splitDeviceName node.device with
  | some (_, device) => (device.map Char.toLower).tails.any fun rest => "gpu".toList.isPrefixOf rest
  | none => false

end TfDml.Optimizer
