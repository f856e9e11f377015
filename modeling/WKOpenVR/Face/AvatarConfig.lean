import WKOpenVR.Json

/-!
# The configurations of avatars

VRChat keeps a configuration file in JSON for each avatar. The host looks for the one with the
id of an avatar (`findAvatarConfig`), or, when it does not know the avatar, for the one that
matches best the parameters it has observed (`findBestAvatarConfigForObservedAddresses`). The
addresses of the parameters in it that are floats make the allow list (`buildAllowListBody`).

Reading a configuration may fail with an exception, which is `none`.
-/

namespace WKOpenVR.Face

open Text Json

def avatarAddressPrefix : List UInt8 := ascii "/avatar/parameters/"

def isAvatarParameterAddress (address : List UInt8) : Bool :=
  List.isPrefixOf avatarAddressPrefix address

def isNullOrWhiteSpace (text : List UInt8) : Bool := text.all isSpace

/-! ## Reading a configuration -/

structure AvatarConfig where
  avatarId : List UInt8
  addresses : List (List UInt8)
  deriving DecidableEq

/-- `TryGetProperty`, which needs an object. -/
def tryGetProperty (element : Value) (name : List UInt8) : Option (Option Value) :=
  match element with
  | .object fields => some ((Value.object fields).field? name)
  | _ => none

/-- `GetString` of a property, which is absent or `null` or has to be a string. -/
def getString : Option Value → Option (Option (List UInt8))
  | none => some none
  | some .null => some none
  | some (.string text) => some (some text)
  | some _ => none

variable (root : Value)

def readId : Option (Option (List UInt8)) :=
  (tryGetProperty root (ascii "id")).bind getString

/-- The address of a parameter, if it is a float. -/
def floatAddress (parameter : Value) : Option (Option (List UInt8)) := do
  match ← tryGetProperty parameter (ascii "input") with
  | some (.object fields) =>
    let input := Value.object fields
    let type ← getString (input.field? (ascii "type"))
    if type.any fun t => t.map toLower == ascii "float" then
      let address ← getString (input.field? (ascii "address"))
      return address.filter isAvatarParameterAddress
    else return none
  | _ => return none

def extractFloatAddresses : Option (List (List UInt8)) := do
  match ← tryGetProperty root (ascii "parameters") with
  | some (.array parameters) =>
    let addresses ← parameters.mapM floatAddress
    return (addresses.filterMap id).eraseDups
  | _ => return []

def readAvatarConfig : Option AvatarConfig := do
  let id ← readId root
  let addresses ← extractFloatAddresses root
  return ⟨id.getD [], addresses⟩

/-! ## Looking for a configuration -/

variable (files : List Value) (avatarId : List UInt8)

def findAvatarConfig : Option Value :=
  files.find? fun root => readId root == some (some avatarId)

def minObservedAddressesForInference : ℕ := 8

def minObservedMatchCount : ℕ := 8

def minObservedTieBreak : ℕ := 3

/-- The best match so far with its number of matches, and the second best number. -/
structure BestMatch where
  best : Option (AvatarConfig × ℕ) := none
  secondBestCount : ℕ := 0

def BestMatch.consider (observed : List (List UInt8)) (b : BestMatch) (root : Value) : BestMatch :=
  match readAvatarConfig root with
  | none => b
  | some config =>
    let matchCount := observed.countP fun address => config.addresses.contains address
    if isNullOrWhiteSpace config.avatarId || matchCount == 0 then b
    else
      match b.best with
      | none => ⟨some (config, matchCount), 0⟩
      | some (_, count) =>
        if count < matchCount then ⟨some (config, matchCount), count⟩
        else if b.secondBestCount < matchCount then { b with secondBestCount := matchCount }
        else b

def findBestAvatarConfigForObservedAddresses
    (observedAddresses : List (List UInt8)) : Option AvatarConfig :=
  let observed := (observedAddresses.filter isAvatarParameterAddress).eraseDups
  if observed.length < minObservedAddressesForInference then none
  else
    let b := files.foldl (BestMatch.consider observed) {}
    b.best.bind fun (config, matchCount) =>
      if matchCount < minObservedMatchCount then none
      else if matchCount < 24 ∧ matchCount - b.secondBestCount < minObservedTieBreak then none
      else some config

/-! ## The allow list -/

def buildAllowListBody (addresses : List (List UInt8)) : List UInt8 :=
  if addresses = [] then [] else ([10] : List UInt8).intercalate addresses ++ [10]

/-- White space at both ends of a line is dropped. -/
def trim (line : List UInt8) : List UInt8 := (line.dropWhile isSpace).rdropWhile isSpace

def countAllowListBody (body : List UInt8) : ℕ :=
  (body.splitOn 10).countP fun line => isAvatarParameterAddress (trim line)

/-- The name of the file that caches the list of an avatar. -/
def cachePath : List UInt8 :=
  avatarId.map fun c =>
    if 97 ≤ c ∧ c ≤ 122 ∨ 65 ≤ c ∧ c ≤ 90 ∨ isDigit c ∨ c = 95 ∨ c = 45 then c else 95

variable (cache : List UInt8 → Option (List UInt8))

/-- The cached list of an avatar, unless it is empty. -/
def cachedAllowList (avatarId : List UInt8) : Option (List UInt8) :=
  (cache (cachePath avatarId)).filter fun body => countAllowListBody body != 0

/-- The configuration that is found for an avatar and can be read. -/
def avatarConfig? : Option AvatarConfig :=
  (findAvatarConfig files avatarId).bind readAvatarConfig

/-- What `RefreshForAvatarAsync` writes: the addresses of the avatar, or what is cached for it. -/
def refreshBody (avatarId : List UInt8) : List UInt8 :=
  if isNullOrWhiteSpace avatarId then []
  else
    match avatarConfig? files avatarId with
    | some config => buildAllowListBody config.addresses
    | none => (cachedAllowList cache avatarId).getD []

/-- The cache after a list was written for an avatar. -/
def writeCache (avatarId : List UInt8)
    (addresses : List (List UInt8)) : List UInt8 → Option (List UInt8) :=
  if isNullOrWhiteSpace avatarId || addresses.isEmpty then cache
  else fun path => if path = cachePath avatarId then some (buildAllowListBody addresses)
    else cache path

end WKOpenVR.Face
