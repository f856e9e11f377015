import WKOpenVR.Cbor
import WKOpenVR.Frame

/-!
# The control pipe of the face module host

The driver tells the host of the face modules which module to use, or to shut down. Its
supervisor writes a message as a frame on the control pipe of the host, whose payload is a
map in CBOR: `{ "type": "SelectModule", "uuid": … }`. The host reads the frames of a
connection one by one, and reads the map of each (`HandleConnectionAsync`).

The supervisor writes a text of 24 bytes or more with one byte for its length, so a uuid of
256 bytes or more would not be read back. But a uuid comes to the driver in a field of 40
bytes. All sequences of such uuids are recovered by the host, in order, however the reads of
the pipe are cut (`selectModule_recovered`).
-/

namespace WKOpenVR.Face.ControlPipe

open Cbor WKOpenVR.Frame List

/-! ## The supervisor -/

/-- `FACETRACKING_MODULE_UUID_LEN`. -/
def moduleUuidLen : ℕ := 40

/-- A uuid that a request to the driver can carry: its field has room for it and the NUL that
    ends it. -/
structure Accepted (uuid : String) : Prop where
  nul_free : 0 ∉ utf8 uuid
  length_lt : (utf8 uuid).length < moduleUuidLen

def cborAppendTextString (out s : List UInt8) : List UInt8 :=
  if s.length < 24 then out ++ UInt8.ofNat (0x60 ||| s.length) :: s
  else out ++ 0x78 :: UInt8.ofNat (s.length &&& 0xff) :: s

def encodeSelectModule (uuid : List UInt8) : List UInt8 :=
  let body := [0xA2]
  let body := cborAppendTextString body (utf8 "type")
  let body := cborAppendTextString body (utf8 "SelectModule")
  let body := cborAppendTextString body (utf8 "uuid")
  let body := cborAppendTextString body uuid
  frame body

/-! ## The host -/

/-- What the host is told to do. -/
inductive Command
  | selectModule (uuid : String)
  | shutdown
  deriving DecidableEq

structure Fields where
  msgType : Option String := none
  uuid : Option String := none

/-- The loop of `DispatchMessage` over the pairs of the map, of which `pairs` are left unless
    it is indefinite. -/
def readFields : ℕ → Option ℕ → List UInt8 → Fields → Option Fields
  | 0, _, _, _ => none
  | _ + 1, some 0, _, fields => some fields
  | fuel + 1, pairs, bs, fields =>
    if pairs = none ∧ bs.head? = some 0xFF then some fields
    else do
      let (key, bs) ← readTextString bs
      if key = "type" then
        let (value, bs) ← readTextString bs
        readFields fuel (pairs.map (· - 1)) bs { fields with msgType := some value }
      else if key = "uuid" then
        let (value, bs) ← readTextString bs
        readFields fuel (pairs.map (· - 1)) bs { fields with uuid := some value }
      else
        let bs ← skipValue bs
        readFields fuel (pairs.map (· - 1)) bs fields

/-- `DispatchMessage`. What it throws is logged, as is an unknown type. -/
def dispatchMessage (data : List UInt8) : Option Command := do
  let (pairs, bs) ← readStartMap data
  let fields ← readFields (bs.length + 1) pairs bs {}
  match fields.msgType, fields.uuid with
  | some "SelectModule", some uuid => some (.selectModule uuid)
  | some "Shutdown", _ => some .shutdown
  | _, _ => none

/-- The messages of a connection are dispatched in turn, until the host shuts down. -/
def dispatchMessages : List (List UInt8) → List Command
  | [] => []
  | data :: messages =>
    match dispatchMessage data with
    | some .shutdown => [.shutdown]
    | some command => command :: dispatchMessages messages
    | none => dispatchMessages messages

/-- `HandleConnectionAsync`. -/
def handleConnection (cs : List (List UInt8)) : List Command :=
  dispatchMessages (frames 65536 cs)

/-! ## What the host reads -/

variable {s uuid : String} {rest : List UInt8}

/-- A text that the supervisor writes. -/
def text (s : List UInt8) : List UInt8 := cborAppendTextString [] s

theorem cborAppendTextString_eq (out s : List UInt8) :
    cborAppendTextString out s = out ++ text s := by
  rw [text, cborAppendTextString, cborAppendTextString]
  split_ifs <;> rfl

/-- A text whose length fits into a byte is read back. -/
theorem readTextString_text (h : (utf8 s).length < 256) :
    readTextString (text (utf8 s) ++ rest) = some (s, rest) := by
  refine readTextString_eq ?_
  rw [text, cborAppendTextString]
  split_ifs with hshort
  · have hhead : ∀ n < 24, (UInt8.ofNat (0x60 ||| n)).toNat = 32 * 3 + n := by decide
    exact readHead_of_lt (hhead _ hshort) hshort
  · have hand : (utf8 s).length &&& 0xff = (utf8 s).length := by
      rw [show 0xff = 2 ^ 8 - 1 from rfl, Nat.and_two_pow_sub_one_eq_mod]
      exact Nat.mod_eq_of_lt h
    have hbyte : (UInt8.ofNat (utf8 s).length).toNat = (utf8 s).length :=
      Nat.mod_eq_of_lt h
    have hhead : readHead (0x78 :: UInt8.ofNat (utf8 s).length :: (utf8 s ++ rest)) =
        some (3, some (UInt8.ofNat (utf8 s).length).toNat, utf8 s ++ rest) :=
      readHead_byte (by decide)
    rw [hbyte] at hhead
    rw [hand]
    exact hhead

/-- The payload of a message that selects a module. -/
def selectModuleBody (uuid : List UInt8) : List UInt8 :=
  0xA2 :: (text (utf8 "type") ++ (text (utf8 "SelectModule") ++ (text (utf8 "uuid") ++ text uuid)))

theorem encodeSelectModule_eq (uuid : List UInt8) :
    encodeSelectModule uuid = frame (selectModuleBody uuid) := by
  simp [encodeSelectModule, selectModuleBody, cborAppendTextString_eq]

theorem length_text (s : List UInt8) :
    (text s).length = if s.length < 24 then s.length + 1 else s.length + 2 := by
  rw [text, cborAppendTextString]
  split_ifs <;> simp

theorem length_selectModuleBody (uuid : List UInt8) :
    (selectModuleBody uuid).length = 24 + (text uuid).length := by
  have htype : (text (utf8 "type")).length = 5 := by decide
  have hselect : (text (utf8 "SelectModule")).length = 13 := by decide
  have huuid : (text (utf8 "uuid")).length = 5 := by decide
  simp only [selectModuleBody, length_cons, length_append, htype, hselect, huuid]
  omega

/-- A uuid of less than 256 bytes is read back from its message. -/
theorem dispatchMessage_selectModule (h : (utf8 uuid).length < 256) :
    dispatchMessage (selectModuleBody (utf8 uuid)) = some (.selectModule uuid) := by
  have htext {s : String} (rest : List UInt8) (hs : (utf8 s).length < 256) :
      readTextString (text (utf8 s) ++ rest) = some (s, rest) := readTextString_text hs
  have hend : readTextString (text (utf8 uuid)) = some (uuid, []) := by
    simpa using htext [] h
  have hstart (bs : List UInt8) : readStartMap (0xA2 :: bs) = some (some 2, bs) := by
    have hhead : readHead (0xA2 :: bs) = some (5, some 2, bs) :=
      readHead_of_lt (by decide) (by decide)
    simp [readStartMap, hhead]
  -- There is fuel for the two pairs and the end of the map.
  have hlength := length_selectModuleBody (utf8 uuid)
  rw [selectModuleBody, length_cons] at hlength
  rw [dispatchMessage, selectModuleBody, hstart]
  generalize htail : (text (utf8 "type") ++ (text (utf8 "SelectModule") ++ (text (utf8 "uuid") ++
    text (utf8 uuid)))) = tail at hlength ⊢
  obtain ⟨fuel, hfuel⟩ : ∃ fuel, tail.length = fuel + 2 := ⟨tail.length - 2, by omega⟩
  simp only [Option.bind_eq_bind, Option.bind_some, hfuel]
  rw [← htail]
  simp [readFields, htext, hend, show (utf8 "type").length < 256 by decide,
    show (utf8 "SelectModule").length < 256 by decide, show (utf8 "uuid").length < 256 by decide]

theorem dispatchMessages_selectModule {uuids : List String}
    (h : ∀ uuid ∈ uuids, (utf8 uuid).length < 256) :
    dispatchMessages (uuids.map fun uuid => selectModuleBody (utf8 uuid)) =
      uuids.map .selectModule := by
  induction uuids with
  | nil => rfl
  | cons uuid uuids ih =>
    obtain ⟨huuid, h⟩ := forall_mem_cons.1 h
    rw [map_cons, dispatchMessages, dispatchMessage_selectModule huuid]
    exact congrArg (Command.selectModule uuid :: ·) (ih h)

/-- All sequences of uuids that the driver accepts are recovered by the host, in order,
    however the frames on the pipe are cut into chunks. -/
theorem selectModule_recovered (uuids : List String) (h : ∀ uuid ∈ uuids, Accepted uuid)
    (cs : List (List UInt8))
    (hcs : cs.flatten = uuids.flatMap fun s => encodeSelectModule (utf8 s)) :
    handleConnection cs = uuids.map .selectModule := by
  have hlength (uuid : String) (huuid : uuid ∈ uuids) : (utf8 uuid).length < 256 :=
    (h uuid huuid).length_lt.trans (by decide)
  have hframes : frames 65536 cs = uuids.map fun uuid => selectModuleBody (utf8 uuid) := by
    refine frames_eq (by decide) _ [] (fun p hp => ?_) stuck_nil ?_
    · obtain ⟨uuid, huuid, rfl⟩ := mem_map.1 hp
      refine ⟨cons_ne_nil _ _, ?_⟩
      have htext := length_text (utf8 uuid)
      have hlt := hlength uuid huuid
      rw [length_selectModuleBody]
      split_ifs at htext <;> omega
    · simpa [flatMap_map, encodeSelectModule_eq] using hcs
  rw [handleConnection, hframes, dispatchMessages_selectModule hlength]

/-- Two uuids, the second one not in ASCII and with a byte for its length. -/
def exampleUuids : List String := ["quest-pro", "müller-eye-tracker-0123456789"]

/-- What the supervisor writes for them. -/
def exampleStream : List UInt8 := exampleUuids.flatMap fun s => encodeSelectModule (utf8 s)

/-- `selectModule_recovered` for this stream, cut within the first length and the second
    payload. -/
theorem selectModule_recovered_example :
    handleConnection [exampleStream.take 2, (exampleStream.drop 2).take 60, exampleStream.drop 62] =
      exampleUuids.map .selectModule := by
  have haccepted : ∀ uuid ∈ exampleUuids, Accepted uuid := by
    intro uuid huuid
    have hall : ∀ uuid ∈ exampleUuids, 0 ∉ utf8 uuid ∧ (utf8 uuid).length < moduleUuidLen := by
      decide +kernel
    exact ⟨(hall uuid huuid).1, (hall uuid huuid).2⟩
  refine selectModule_recovered exampleUuids haccepted _ ?_
  have hdrop : exampleStream.drop 62 = (exampleStream.drop 2).drop 60 := by
    rw [drop_drop]
  simp only [hdrop, flatten_cons, flatten_nil, append_nil, take_append_drop]
  rfl

end WKOpenVR.Face.ControlPipe
