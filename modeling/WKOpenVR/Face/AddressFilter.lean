import WKOpenVR.Text

/-!
# The allowlist of the avatar

An avatar has only some of the parameters that the driver publishes, and it may have
them under a longer address. The addresses of its parameters are the lines of a file,
which the driver reads again when it changes (`FaceOscAddressFilter.cpp`). A published
address stands for the first line of the file that has the same key (`compatibleKey`).

An address that a line was found for stands for a line of the file: this is kept as a
field of the filter (`AddressFilter.mem_allowed`), so that every filter has it.
-/

namespace WKOpenVR.Face

open Text List

/-- The bytes of an address. A line of the file is any bytes but a line feed. -/
abbrev Address := List UInt8

def isBlank (c : UInt8) : Bool := c == 32 || c == 9 || c == 13

def trimAddressLine (line : List UInt8) : List UInt8 :=
  (line.dropWhile isBlank).rdropWhile isBlank

def avatarPrefix : Address := ascii "/avatar/parameters/"

/-- What follows the first byte of the last occurrence of `/v2/` (`rfind`). -/
def afterNestedV2 : List UInt8 → Option (List UInt8)
  | [] => none
  | c :: body =>
    match afterNestedV2 body with
    | some key => some key
    | none => if (ascii "/v2/").isPrefixOf (c :: body) then some body else none

/-- What two addresses of the same parameter have in common. -/
def compatibleKey (address : Address) : Address :=
  let body :=
    if avatarPrefix.isPrefixOf address then address.drop avatarPrefix.length else address
  if (ascii "v2/").isPrefixOf body then body else (afterNestedV2 body).getD body

inductive LoadStatus
  | notConfigured
  | missing
  | readFailed
  | loaded
  deriving DecidableEq, Repr

structure AddressFilter where
  path : List UInt8
  fileStamp : UInt64
  loaded : Bool
  loadStatus : LoadStatus
  /-- The lines of the file. -/
  allowed : Finset Address
  /-- The line that an address stands for, by the key of the address. -/
  compatible : List (Address × Address)
  mem_allowed : ∀ entry ∈ compatible, entry.2 ∈ allowed

namespace AddressFilter

/-- A filter that has read no file yet. -/
def new (path : List UInt8) : AddressFilter where
  path := path
  fileStamp := 0xFFFFFFFFFFFFFFFF
  loaded := false
  loadStatus := .notConfigured
  allowed := ∅
  compatible := []
  mem_allowed := nofun

variable (filter : AddressFilter)

/-- Nothing is filtered while no line is known. -/
def active : Bool := !filter.path.isEmpty && decide filter.allowed.Nonempty

/-- A line of the file is allowed. It does not take a key from an earlier line
    (`try_emplace`). -/
def addLine (line : Address) : AddressFilter :=
  if line.isEmpty then filter
  else
    { filter with
      allowed := insert line filter.allowed
      compatible :=
        if (filter.compatible.lookup (compatibleKey line)).isSome then filter.compatible
        else filter.compatible ++ [(compatibleKey line, line)]
      mem_allowed := by
        intro entry hentry
        split_ifs at hentry
        · exact Finset.mem_insert_of_mem (filter.mem_allowed entry hentry)
        · rcases List.mem_append.1 hentry with hentry | hentry
          · exact Finset.mem_insert_of_mem (filter.mem_allowed entry hentry)
          · rw [List.mem_singleton.1 hentry]
            exact Finset.mem_insert_self .. }

variable (body : List UInt8)

def lines : List Address := (body.splitOn 10).map trimAddressLine

/-- The file is read again if its stamp, `stamp`, is another one. A stamp of 0 says that
    there is no file, and no `body` that it could not be read. -/
def reloadIfChanged (stamp : UInt64) (body : Option (List UInt8)) : AddressFilter × Bool :=
  if filter.path.isEmpty then ({ filter with loadStatus := .notConfigured }, false)
  else if filter.loaded && stamp == filter.fileStamp then (filter, false)
  else
    let cleared : AddressFilter :=
      { new filter.path with fileStamp := stamp, loaded := true, loadStatus := .missing }
    if stamp == 0 then (cleared, true)
    else
      match body with
      | none => ({ cleared with loadStatus := .readFailed }, true)
      | some body => ((lines body).foldl addLine { cleared with loadStatus := .loaded }, true)

/-- The line that an address stands for. -/
def compatibleAddress (address : Address) : Option Address :=
  if filter.path.isEmpty || !filter.loaded then none
  else filter.compatible.lookup (compatibleKey address)

variable {filter} {address line : Address}

/-- An address stands for a line of the file. -/
theorem mem_allowed_of_compatibleAddress (h : filter.compatibleAddress address = some line) :
    line ∈ filter.allowed := by
  rw [compatibleAddress] at h
  obtain ⟨before, after, heq, -⟩ := lookup_eq_some_iff.1 (Option.ite_none_left_eq_some.1 h).2
  have hmem : (compatibleKey address, line) ∈ filter.compatible := by simp [heq]
  exact filter.mem_allowed _ hmem

/-! ## The first line with a key -/

/-- The first line of a file that has a key. -/
def firstLine (key : Address) : Option Address :=
  (lines body).find? fun line => !line.isEmpty && compatibleKey line == key

/-- A line is found by its key if no earlier line is. -/
theorem lookup_addLine (filter : AddressFilter) (line key : Address) :
    (filter.addLine line).compatible.lookup key = (filter.compatible.lookup key).or
      (if !line.isEmpty && compatibleKey line == key then some line else none) := by
  cases hempty : line.isEmpty with
  | true => simp [addLine, hempty]
  | false =>
    have hentries : (filter.addLine line).compatible =
        if (filter.compatible.lookup (compatibleKey line)).isSome then filter.compatible
        else filter.compatible ++ [(compatibleKey line, line)] := by
      simp only [addLine, hempty, Bool.false_eq_true, if_false]
    rw [hentries]
    by_cases hkey : compatibleKey line = key
    · subst hkey
      cases hfound : filter.compatible.lookup (compatibleKey line) with
      | some other => simp [hfound]
      | none => simp [hfound, lookup_append]
    · have hkey' : key ≠ compatibleKey line := fun h => hkey h.symm
      have hother : (!false && compatibleKey line == key) = false := by simp [hkey]
      rw [hother, if_neg Bool.false_ne_true, Option.or_none]
      split_ifs
      · rfl
      · simp [hkey', lookup_append]

theorem compatibleKey_of_firstLine {body : List UInt8} {key : Address}
    (h : firstLine body key = some line) : compatibleKey line = key := by
  have hfound := find?_some h
  exact beq_iff_eq.1 (Bool.and_eq_true_iff.1 hfound).2

theorem lookup_foldl_addLine (filter : AddressFilter) (ls : List Address) (key : Address) :
    (ls.foldl addLine filter).compatible.lookup key = (filter.compatible.lookup key).or
      (ls.find? fun line => !line.isEmpty && compatibleKey line == key) := by
  induction ls generalizing filter with
  | nil => rw [foldl_nil, find?_nil, Option.or_none]
  | cons line ls ih =>
    rw [foldl_cons, ih, lookup_addLine, Option.or_assoc, find?_cons]
    cases !line.isEmpty && compatibleKey line == key with
    | true => rw [if_pos rfl, Option.some_or]
    | false => rw [if_neg Bool.false_ne_true, Option.none_or]

/-- The lines of a file are allowed, and what else the filter keeps remains. -/
theorem foldl_addLine (filter : AddressFilter) (ls : List Address) :
    (ls.foldl addLine filter).path = filter.path ∧
      (ls.foldl addLine filter).loaded = filter.loaded ∧
      filter.allowed ⊆ (ls.foldl addLine filter).allowed ∧
      ∀ line ∈ ls, line ≠ [] → line ∈ (ls.foldl addLine filter).allowed := by
  induction ls generalizing filter with
  | nil => exact ⟨rfl, rfl, subset_rfl, nofun⟩
  | cons line ls ih =>
    obtain ⟨hpath, hloaded, hold, hnew⟩ := ih (filter.addLine line)
    have hstep : (filter.addLine line).path = filter.path ∧
        (filter.addLine line).loaded = filter.loaded ∧
        filter.allowed ⊆ (filter.addLine line).allowed ∧
        (line ≠ [] → line ∈ (filter.addLine line).allowed) := by
      cases hempty : line.isEmpty with
      | true =>
        rw [addLine, if_pos hempty]
        exact ⟨rfl, rfl, subset_rfl, fun hne => absurd (isEmpty_iff.1 hempty) hne⟩
      | false =>
        rw [addLine, if_neg (ne_true_of_eq_false hempty)]
        exact ⟨rfl, rfl, Finset.subset_insert .., fun _ => Finset.mem_insert_self ..⟩
    refine ⟨hpath.trans hstep.1, hloaded.trans hstep.2.1, hstep.2.2.1.trans hold, ?_⟩
    intro line' hline' hne
    obtain rfl | hline' := mem_cons.1 hline'
    · exact hold (hstep.2.2.2 hne)
    · exact hnew line' hline' hne

section Read

variable {stamp : UInt64} {body}

/-- What a file that is read makes of a filter. -/
theorem reloadIfChanged_eq (h : (filter.reloadIfChanged stamp (some body)).2 = true)
    (hstamp : stamp ≠ 0) :
    filter.path.isEmpty = false ∧ (filter.reloadIfChanged stamp (some body)).1 =
      (lines body).foldl addLine
        { new filter.path with fileStamp := stamp, loaded := true, loadStatus := .loaded } := by
  unfold reloadIfChanged at h ⊢
  split_ifs at h ⊢ with hpath hsame hzero
  · exact absurd (beq_iff_eq.1 hzero) hstamp
  · exact ⟨eq_false_of_ne_true hpath, rfl⟩

/-- An address stands for the first line that has its key. -/
theorem compatibleAddress_reloadIfChanged (h : (filter.reloadIfChanged stamp (some body)).2 = true)
    (hstamp : stamp ≠ 0) (address : Address) :
    (filter.reloadIfChanged stamp (some body)).1.compatibleAddress address =
      firstLine body (compatibleKey address) := by
  obtain ⟨hpath, heq⟩ := reloadIfChanged_eq h hstamp
  obtain ⟨hpath', hloaded, -, -⟩ := foldl_addLine
    { new filter.path with fileStamp := stamp, loaded := true, loadStatus := .loaded } (lines body)
  rw [heq, compatibleAddress, hpath', hloaded, lookup_foldl_addLine]
  simp [new, hpath, firstLine]

/-- A filter that has a line filters. -/
theorem active_reloadIfChanged (h : (filter.reloadIfChanged stamp (some body)).2 = true)
    (hstamp : stamp ≠ 0) (hline : line ∈ lines body) (hne : line ≠ []) :
    (filter.reloadIfChanged stamp (some body)).1.active = true := by
  obtain ⟨hpath, heq⟩ := reloadIfChanged_eq h hstamp
  obtain ⟨hpath', -, -, hallowed⟩ := foldl_addLine
    { new filter.path with fileStamp := stamp, loaded := true, loadStatus := .loaded } (lines body)
  rw [heq, active, hpath', Bool.and_eq_true, decide_eq_true_eq]
  exact ⟨by simp [new, hpath], line, hallowed line hline hne⟩

end Read

end AddressFilter

end WKOpenVR.Face
