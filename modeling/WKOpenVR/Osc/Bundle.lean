import WKOpenVR.Osc.Wire

/-!
# Dispatching bundles

A packet is a message, or a bundle: a header, a time tag and elements, which are packets
preceded by their length. `OscDispatch` calls back for every message of a packet. What it
hands over are pointers into the buffer (`Call`); what the callback can read there, if it
is in the buffer, is a `Delivery`.

The sizes are not trusted. Whatever the bytes are, the dispatch ends, and what it hands
over is in the buffer (`view_of_mem_oscDispatch`). The elements of a bundle are dispatched
up to the first one that is not complete, each on its own (`deliveries_bundle`): so an
element that is cut off hides nothing outside of its bundle. The messages of a tree of
bundles are delivered in the order in which they are in it (`deliveries_encode`).
-/

namespace WKOpenVR.Osc

open List Option Nat

/-- A call of the callback: where the address, the type tag and the arguments are, and the
    number of bytes of the arguments. -/
structure Call where
  address : ℕ
  typetag : ℕ
  argData : ℕ
  argSize : ℕ
  deriving DecidableEq

/-- The same call, in a buffer in which the data is at `n`. -/
def Call.shift (n : ℕ) (c : Call) : Call :=
  ⟨n + c.address, n + c.typetag, n + c.argData, c.argSize⟩

/-- `kOscBundlePrefix`, with its terminator. -/
def oscBundlePrefix : List UInt8 := [35, 98, 117, 110, 100, 108, 101, 0]

def oscBundlePrefixLen : ℕ := 8

variable (data : List UInt8)

/-- The call for a message, if it can be parsed. -/
def messageCalls : List Call :=
  let address := (OscReader.ofBytes data).readStr
  let typetag := address.2.readStr
  if (oscParseMessage data).valid then
    [⟨0, address.2.pos, typetag.2.pos, data.length - typetag.2.pos⟩]
  else []

/-- The length that precedes an element, at `pos`. -/
def elementLength (pos : ℕ) : ℕ :=
  (OscReader.ofBytes ((data.drop pos).take 4)).readInt32.1.toNat

mutual

/-- `OscDispatch`, with positions relative to the start of `data`. -/
def dispatch : ℕ → List UInt8 → Option (List Call)
  | 0, _ => none
  | fuel + 1, data =>
    if data.length < oscBundlePrefixLen then some []
    else if data.take oscBundlePrefixLen = oscBundlePrefix then
      if data.length < 16 then some [] else dispatchElements fuel data 16
    else some (messageCalls data)

/-- The loop of `OscDispatch` over the elements of a bundle. -/
def dispatchElements : ℕ → List UInt8 → ℕ → Option (List Call)
  | 0, _, _ => none
  | fuel + 1, data, pos =>
    if pos + 4 ≤ data.length then
      if pos + 4 + elementLength data pos > data.length then some []
      else do
        let calls ← dispatch fuel ((data.drop (pos + 4)).take (elementLength data pos))
        let more ← dispatchElements fuel data (pos + 4 + elementLength data pos)
        return calls.map (Call.shift (pos + 4)) ++ more
    else some []

end

variable {data : List UInt8}

/-- The calls for a packet. More fuel does not change them (`dispatch_eq`). -/
def oscDispatch (data : List UInt8) : List Call := (dispatch (data.length + 1) data).getD []

def oscDispatchElements (data : List UInt8) (pos : ℕ) : List Call :=
  (dispatchElements (data.length - pos + 1) data pos).getD []

/-! ## Termination -/

/-- Fuel for every byte suffices: each element takes four bytes for its length. -/
theorem dispatch_terminates (fuel : ℕ) :
    (∀ data : List UInt8, data.length < fuel →
      ∃ calls, ∀ k, dispatch (k + fuel) data = some calls) ∧
    ∀ (data : List UInt8) (pos : ℕ), data.length - pos < fuel →
      ∃ calls, ∀ k, dispatchElements (k + fuel) data pos = some calls := by
  induction fuel with
  | zero => exact ⟨fun _ h => absurd h (not_lt_zero _), fun _ _ h => absurd h (not_lt_zero _)⟩
  | succ fuel ih =>
    constructor
    · intro data hdata
      by_cases hbundle : 16 ≤ data.length ∧ data.take oscBundlePrefixLen = oscBundlePrefix
      · obtain ⟨calls, hcalls⟩ := ih.2 data 16 (by omega)
        refine ⟨calls, fun k => ?_⟩
        rw [← add_assoc, dispatch, if_neg (by rw [oscBundlePrefixLen]; omega), if_pos hbundle.2,
          if_neg (by omega), hcalls]
      · -- No element is looked at, so that one step is enough.
        refine ⟨(dispatch 1 data).getD [], fun k => ?_⟩
        rw [← add_assoc, dispatch, dispatch]
        split_ifs with hshort hheader htag
        · rfl
        · rfl
        · exact absurd ⟨Nat.le_of_not_lt htag, hheader⟩ hbundle
        · rfl
    · intro data pos hdata
      by_cases hhead : pos + 4 ≤ data.length
      · by_cases hbody : pos + 4 + elementLength data pos > data.length
        · refine ⟨[], fun k => ?_⟩
          rw [← add_assoc, dispatchElements, if_pos hhead, if_pos hbody]
        · -- The element is shorter than what is left, and so is the rest after it.
          obtain ⟨calls, hcalls⟩ := ih.1
            ((data.drop (pos + 4)).take (elementLength data pos)) (by
              rw [length_take, length_drop]
              omega)
          obtain ⟨more, hmore⟩ := ih.2 data (pos + 4 + elementLength data pos) (by omega)
          refine ⟨calls.map (Call.shift (pos + 4)) ++ more, fun k => ?_⟩
          rw [← add_assoc, dispatchElements, if_pos hhead, if_neg hbody, hcalls, hmore]
          rfl
      · refine ⟨[], fun k => ?_⟩
        rw [← add_assoc, dispatchElements, if_neg hhead]

variable {fuel : ℕ}

theorem dispatch_eq (h : data.length < fuel) : dispatch fuel data = some (oscDispatch data) := by
  obtain ⟨calls, hcalls⟩ := (dispatch_terminates (data.length + 1)).1 data (lt_succ_self _)
  obtain ⟨k, rfl⟩ := Nat.exists_eq_add_of_le' h
  have hleast := hcalls 0
  rw [zero_add] at hleast
  rw [oscDispatch, hleast, hcalls k, getD_some]

variable {pos : ℕ}

theorem dispatchElements_eq (h : data.length - pos < fuel) :
    dispatchElements fuel data pos = some (oscDispatchElements data pos) := by
  obtain ⟨calls, hcalls⟩ :=
    (dispatch_terminates (data.length - pos + 1)).2 data pos (lt_succ_self _)
  obtain ⟨k, rfl⟩ := Nat.exists_eq_add_of_le' h
  have hleast := hcalls 0
  rw [zero_add] at hleast
  rw [oscDispatchElements, hleast, hcalls k, getD_some]

theorem oscDispatch_eq (data : List UInt8) :
    oscDispatch data =
      if data.length < oscBundlePrefixLen then []
      else if data.take oscBundlePrefixLen = oscBundlePrefix then
        if data.length < 16 then [] else oscDispatchElements data 16
      else messageCalls data := by
  have hloop : 16 ≤ data.length →
      dispatchElements data.length data 16 = some (oscDispatchElements data 16) :=
    fun h => dispatchElements_eq (by omega)
  rw [oscDispatch, dispatch]
  split_ifs with hshort hheader htag
  · rfl
  · rfl
  · rw [hloop (Nat.le_of_not_lt htag), getD_some]
  · rfl

theorem oscDispatchElements_eq (data : List UInt8) (pos : ℕ) :
    oscDispatchElements data pos =
      if pos + 4 ≤ data.length then
        if pos + 4 + elementLength data pos > data.length then []
        else
          (oscDispatch ((data.drop (pos + 4)).take (elementLength data pos))).map
              (Call.shift (pos + 4)) ++
            oscDispatchElements data (pos + 4 + elementLength data pos)
      else [] := by
  rw [oscDispatchElements, dispatchElements]
  split_ifs with hhead hbody
  · rfl
  · rw [dispatch_eq (by rw [length_take, length_drop]; omega), dispatchElements_eq (by omega)]
    rfl
  · rfl

/-! ## What the callback reads -/

variable (buf : List UInt8)

/-- The string at `p`, if it ends in the buffer. -/
def cstrAt (p : ℕ) : Option (List UInt8) :=
  if 0 ∈ buf.drop p then some ((buf.drop p).takeWhile (· ≠ 0)) else none

/-- An address, a type tag and the bytes of the arguments. -/
structure Delivery where
  address : List UInt8
  typetag : List UInt8
  args : List UInt8
  deriving DecidableEq

/-- What a call points to, if all of it is in the buffer. -/
def Call.view (c : Call) : Option Delivery := do
  let address ← cstrAt buf c.address
  let typetag ← cstrAt buf c.typetag
  if c.argData + c.argSize ≤ buf.length then
    return ⟨address, typetag, (buf.drop c.argData).take c.argSize⟩
  else none

def deliveries (data : List UInt8) : List (Option Delivery) :=
  (oscDispatch data).map (Call.view data)

theorem cstrAt_append {s : List UInt8} {p : ℕ} (h : cstrAt data p = some s)
    (pre post : List UInt8) : cstrAt (pre ++ data ++ post) (pre.length + p) = some s := by
  have hdrop : (pre ++ data ++ post).drop (pre.length + p) =
      data.drop p ++ post.drop (p - data.length) := by
    rw [append_assoc, drop_append, drop_append]
    simp
  unfold cstrAt at h ⊢
  split_ifs at h with hmem
  have hne : ¬((data.drop p).takeWhile (· ≠ 0)).length = (data.drop p).length := by
    intro heq
    have hfront := takeWhile_prefix (l := data.drop p) (· ≠ 0)
    have hall := takeWhile_eq_self_iff.1 (hfront.eq_of_length heq)
    exact absurd (hall 0 hmem) (by simp)
  rw [hdrop, if_pos (mem_append_left _ hmem), takeWhile_append, if_neg hne]
  exact h

/-- What a call points to is the same in a buffer that contains the data. -/
theorem Call.view_shift {c : Call} (h : (c.view data).isSome) (pre post : List UInt8) :
    (c.shift pre.length).view (pre ++ data ++ post) = c.view data := by
  obtain ⟨d, hd⟩ := isSome_iff_exists.1 h
  simp only [view, bind_eq_bind, bind_eq_some_iff] at hd
  obtain ⟨address, haddress, typetag, htypetag, hargs⟩ := hd
  split_ifs at hargs with hsize
  have hlen : pre.length + c.argData + c.argSize ≤ (pre ++ data ++ post).length := by
    simp only [length_append]
    omega
  have htake : ((pre ++ data ++ post).drop (pre.length + c.argData)).take c.argSize =
      (data.drop c.argData).take c.argSize := by
    rw [append_assoc, drop_append, drop_append, Nat.add_sub_cancel_left,
      drop_eq_nil_of_le (le_add_right _ _), nil_append,
      take_append_of_le_length (by rw [length_drop]; omega)]
  simp only [view, shift, cstrAt_append haddress, cstrAt_append htypetag, haddress, htypetag,
    if_pos hlen, if_pos hsize, htake, bind_eq_bind, bind_some]

open OscReader

theorem cstrAt_of_readStr {r : OscReader} {s : CStr} (h : r.readStr.1 = some s) :
    cstrAt r.data r.pos = some s.bytes := by
  unfold readStr at h
  split_ifs at h with hvalid hnul hsize
  cases h
  have hmem : 0 ∈ r.rest := by
    by_contra hmem
    refine hnul (congrArg List.length (takeWhile_eq_self_iff.2 fun b hb => ?_))
    exact decide_eq_true fun h0 => hmem (h0 ▸ hb)
  exact if_pos hmem

/-- A message that can be parsed is handed over as it has been parsed. -/
theorem view_messageCalls {address typetag : CStr} {args : List UInt8}
    (h : oscParseMessage data = ⟨some address, some typetag, args, true⟩) :
    (messageCalls data).map (Call.view data) =
      [some ⟨address.bytes, typetag.bytes, args⟩] := by
  have hvalid : (oscParseMessage data).valid = true := by rw [h]
  rw [messageCalls, if_pos hvalid]
  have hsome := hvalid
  simp only [oscParseMessage] at h hsome
  split_ifs at h hsome
  simp only [OscMessage.mk.injEq, and_true] at h
  obtain ⟨haddress, htypetag, hargs⟩ := h
  obtain ⟨hread, hpos⟩ := readStr_some haddress
  obtain ⟨hread', hpos'⟩ := readStr_some htypetag
  have hview := cstrAt_of_readStr haddress
  have hview' := cstrAt_of_readStr htypetag
  rw [hread'] at hargs ⊢
  rw [hread] at hpos' hview' hargs ⊢
  simp only [pos_advance, data_advance, ofBytes, zero_add,
    rest] at hpos' hview hview' hargs ⊢
  have hsize : address.advance + typetag.advance +
      (data.length - (address.advance + typetag.advance)) ≤ data.length := by omega
  have htake : (data.drop (address.advance + typetag.advance)).take
      (data.length - (address.advance + typetag.advance)) = args := by
    rw [hargs, take_of_length_le (by rw [← hargs, length_drop])]
  simp only [map_cons, map_nil, Call.view, hview, hview', if_pos hsize, htake,
    bind_eq_bind, bind_some, Option.pure_def]

theorem exists_of_valid (h : (oscParseMessage data).valid = true) :
    ∃ address typetag args, oscParseMessage data = ⟨some address, some typetag, args, true⟩ := by
  simp only [oscParseMessage] at h ⊢
  split_ifs at h ⊢ with hsome
  simp only [Bool.and_eq_true, isSome_iff_exists] at hsome
  obtain ⟨⟨-, address, haddress⟩, typetag, htypetag⟩ := hsome
  exact ⟨address, typetag, _, by rw [haddress, htypetag]⟩

/-- The bytes around those of an element. -/
theorem append_element {len : ℕ} (h : pos + len ≤ data.length) : (data.take pos).length = pos ∧
      data.take pos ++ (data.drop pos).take len ++ data.drop (pos + len) = data := by
  refine ⟨length_take_of_le (by omega), ?_⟩
  rw [← drop_drop, append_assoc, take_append_drop, take_append_drop]

theorem view_of_mem (n : ℕ) :
    (∀ data : List UInt8, data.length < n → ∀ c ∈ oscDispatch data, (c.view data).isSome) ∧
    ∀ (data : List UInt8) (pos : ℕ), data.length - pos < n →
      ∀ c ∈ oscDispatchElements data pos, (c.view data).isSome := by
  induction n with
  | zero => exact ⟨fun _ h => absurd h (not_lt_zero _), fun _ _ h => absurd h (not_lt_zero _)⟩
  | succ n ih =>
    constructor
    · intro data hdata c hc
      rw [oscDispatch_eq] at hc
      split_ifs at hc with hshort hheader htag
      · cases hc
      · cases hc
      · exact ih.2 data 16 (by omega) c hc
      · by_cases hvalid : (oscParseMessage data).valid = true
        · obtain ⟨address, typetag, args, hparse⟩ := exists_of_valid hvalid
          have hview := mem_map_of_mem (f := Call.view data) hc
          rw [view_messageCalls hparse, mem_singleton] at hview
          rw [hview, isSome_some]
        · rw [messageCalls, if_neg hvalid] at hc
          cases hc
    · intro data pos hdata c hc
      rw [oscDispatchElements_eq] at hc
      split_ifs at hc with hhead hbody
      · cases hc
      · rcases mem_append.1 hc with hc | hc
        -- A call of an element is that of the element alone, moved to its place.
        · obtain ⟨c', hc', rfl⟩ := mem_map.1 hc
          have hview := ih.1 _ (by rw [length_take, length_drop]; omega) c' hc'
          obtain ⟨hpre, happend⟩ := append_element (Nat.le_of_not_lt hbody)
          have hshift := Call.view_shift hview (data.take (pos + 4))
            (data.drop (pos + 4 + elementLength data pos))
          rw [hpre, happend] at hshift
          rw [hshift]
          exact hview
        · exact ih.2 data _ (by omega) c hc
      · cases hc

/-- Everything that is handed over is in the buffer. -/
theorem view_of_mem_oscDispatch {c : Call} (hc : c ∈ oscDispatch data) : (c.view data).isSome :=
  (view_of_mem (data.length + 1)).1 data (lt_succ_self _) c hc

/-! ## Bundles -/

variable (packet : List UInt8)

/-- An element of a bundle: a packet after its length. -/
def element : List UInt8 :=
  int32Bytes (BitVec.ofNat 32 packet.length) ++ packet

variable (seconds fraction : BitVec 32)

/-- The bytes of a bundle, with what follows its elements. -/
def bundle (packets : List (List UInt8)) (tail : List UInt8) : List UInt8 :=
  oscBundlePrefix ++ int32Bytes seconds ++ int32Bytes fraction ++ packets.flatMap element ++ tail

/-- The bytes are not those of an element: the length is missing, or more than there is. -/
def Incomplete (tail : List UInt8) : Prop :=
  tail.length < 4 ∨ tail.length < 4 + elementLength tail 0

instance (tail : List UInt8) : Decidable (Incomplete tail) := inferInstanceAs (Decidable (_ ∨ _))

theorem elementLength_append (pre data : List UInt8) (pos : ℕ) :
    elementLength (pre ++ data) (pre.length + pos) = elementLength data pos := by
  rw [elementLength, elementLength, drop_append, Nat.add_sub_cancel_left,
    drop_eq_nil_of_le (le_add_right _ _), nil_append]

theorem elementLength_element {packet : List UInt8} (h : packet.length < 2 ^ 32)
    (rest : List UInt8) : elementLength (element packet ++ rest) 0 = packet.length := by
  have htake : (element packet ++ rest).take 4 =
      int32Bytes (BitVec.ofNat 32 packet.length) ++ [] := by
    rw [element, append_assoc, append_nil]
    exact take_left' (length_int32Bytes _)
  rw [elementLength, drop_zero, htake, readInt32_bytes (by rfl) rfl,
    BitVec.toNat_ofNat, mod_eq_of_lt h]

@[simp] theorem length_element : (element packet).length = 4 + packet.length := by
  rw [element, length_append, length_int32Bytes]

variable {packets : List (List UInt8)}

theorem view_oscDispatchElements {tail : List UInt8}
    (hpackets : ∀ packet ∈ packets, packet.length < 2 ^ 32) (htail : Incomplete tail)
    (pre : List UInt8) :
    (oscDispatchElements (pre ++ (packets.flatMap element ++ tail)) pre.length).map
        (Call.view (pre ++ (packets.flatMap element ++ tail))) =
      packets.flatMap deliveries := by
  induction packets generalizing pre with
  | nil =>
    have hlen := elementLength_append pre tail 0
    rw [add_zero] at hlen
    rw [flatMap_nil, nil_append, oscDispatchElements_eq, hlen, length_append]
    split_ifs with hhead hbody
    · rfl
    · rcases htail with htail | htail <;> omega
    · rfl
  | cons packet packets ih =>
    have hpacket := hpackets packet mem_cons_self
    have hlen := elementLength_append pre
      (element packet ++ (packets.flatMap element ++ tail)) 0
    rw [add_zero, elementLength_element hpacket] at hlen
    -- The element is read from the length in front of it and dispatched on its own bytes.
    have hhead : (pre ++ int32Bytes (BitVec.ofNat 32 packet.length)).length = pre.length + 4 := by
      rw [length_append, length_int32Bytes]
    have hwhole : pre ++ (element packet ++ (packets.flatMap element ++ tail)) =
        pre ++ int32Bytes (BitVec.ofNat 32 packet.length) ++ packet ++
          (packets.flatMap element ++ tail) := by
      simp only [element, append_assoc]
    have hslice : ((pre ++ (element packet ++ (packets.flatMap element ++ tail))).drop
        (pre.length + 4)).take packet.length = packet := by
      rw [hwhole, ← hhead, append_assoc, drop_left, take_left]
    have hviews : (oscDispatch packet).map (Call.view
        (pre ++ (element packet ++ (packets.flatMap element ++ tail))) ∘
          Call.shift (pre.length + 4)) = deliveries packet := by
      refine map_congr_left fun c hc => ?_
      rw [Function.comp_apply, hwhole, ← hhead]
      exact Call.view_shift (view_of_mem_oscDispatch hc) _ _
    have hrest := ih (fun packet hp => hpackets packet (mem_cons_of_mem _ hp))
      (pre ++ element packet)
    rw [append_assoc, length_append, length_element, ← add_assoc] at hrest
    rw [flatMap_cons, append_assoc, oscDispatchElements_eq, hlen,
      if_pos (by simp only [length_append, length_element]; omega),
      if_neg (by simp only [length_append, length_element]; omega), hslice,
      map_append, List.map_map, hviews, hrest, flatMap_cons]

theorem length_bundleHead :
    (oscBundlePrefix ++ int32Bytes seconds ++ int32Bytes fraction).length = 16 := rfl

/-- The elements of a bundle are dispatched each on its own, up to one that is not complete. -/
theorem deliveries_bundle {tail : List UInt8}
    (hpackets : ∀ packet ∈ packets, packet.length < 2 ^ 32) (htail : Incomplete tail)
    (seconds fraction : BitVec 32) :
    deliveries (bundle seconds fraction packets tail) = packets.flatMap deliveries := by
  have hviews := view_oscDispatchElements hpackets htail
    (oscBundlePrefix ++ int32Bytes seconds ++ int32Bytes fraction)
  have hlen : 16 ≤ (bundle seconds fraction packets tail).length := by
    rw [bundle, append_assoc, length_append, length_bundleHead]
    exact le_add_right _ _
  have hheader : (bundle seconds fraction packets tail).take oscBundlePrefixLen =
      oscBundlePrefix := by
    simp only [bundle, append_assoc]
    exact take_left' rfl
  rw [length_bundleHead, ← append_assoc] at hviews
  rw [deliveries, oscDispatch_eq, if_neg (by rw [oscBundlePrefixLen]; omega), if_pos hheader,
    if_neg (by omega)]
  exact hviews

theorem exists_int32Bytes {bs : List UInt8} (h : bs.length = 4) : ∃ v, bs = int32Bytes v := by
  match bs, h with
  | [b₀, b₁, b₂, b₃], _ =>
    refine ⟨b₀.toBitVec ++ b₁.toBitVec ++ b₂.toBitVec ++ b₃.toBitVec, ?_⟩
    simp only [int32Bytes, List.cons.injEq, and_true, ← UInt8.toBitVec_inj]
    refine ⟨?_, ?_, ?_, ?_⟩ <;>
    · ext i hi
      simp only [BitVec.getElem_extractLsb', BitVec.getLsbD_append]
      interval_cases i <;> simp

theorem exists_int32Bytes_take (h : pos + 4 ≤ data.length) :
    ∃ v, (data.drop pos).take 4 = int32Bytes v :=
  exists_int32Bytes (length_take_of_le (by rw [length_drop]; omega))

/-- Bytes are elements, up to where they are not complete. -/
theorem exists_elements (n : ℕ) (data : List UInt8) (h : data.length < n) :
    ∃ (packets : List (List UInt8)) (tail : List UInt8),
      data = packets.flatMap element ++ tail ∧
      (∀ packet ∈ packets, packet.length < 2 ^ 32) ∧ Incomplete tail := by
  induction n generalizing data with
  | zero => exact absurd h (not_lt_zero _)
  | succ n ih =>
    by_cases hdata : Incomplete data
    · exact ⟨[], data, rfl, by simp, hdata⟩
    · rw [Incomplete, not_or, not_lt, not_lt] at hdata
      obtain ⟨v, hv⟩ := exists_int32Bytes_take (show 0 + 4 ≤ data.length by omega)
      have hlen : elementLength data 0 = v.toNat := by
        rw [elementLength, hv, readInt32_bytes (by rfl) (append_nil _).symm]
      obtain ⟨packets, tail, hrest, hpackets, htail⟩ :=
        ih (data.drop (4 + v.toNat)) (by rw [length_drop]; omega)
      have htake : ((data.drop 4).take v.toNat).length = v.toNat :=
        length_take_of_le (by rw [length_drop]; omega)
      refine ⟨(data.drop 4).take v.toNat :: packets, tail, ?_, ?_, htail⟩
      · rw [flatMap_cons, append_assoc, ← hrest, element, htake,
          BitVec.ofNat_toNat, BitVec.setWidth_eq, ← hv, append_assoc, ← drop_drop,
          take_append_drop, drop_zero, take_append_drop]
      · rintro packet (_ | ⟨_, hp⟩)
        · rw [htake]
          exact v.isLt
        · exact hpackets packet hp

/-- Every packet with the header of a bundle is one. -/
theorem exists_bundle (hlen : 16 ≤ data.length)
    (hheader : data.take oscBundlePrefixLen = oscBundlePrefix) :
    ∃ seconds fraction packets tail, data = bundle seconds fraction packets tail ∧
      (∀ packet ∈ packets, packet.length < 2 ^ 32) ∧ Incomplete tail := by
  obtain ⟨packets, tail, hrest, hpackets, htail⟩ :=
    exists_elements data.length (data.drop 16) (by rw [length_drop]; omega)
  obtain ⟨seconds, hseconds⟩ := exists_int32Bytes_take (show 8 + 4 ≤ data.length by omega)
  obtain ⟨fraction, hfraction⟩ := exists_int32Bytes_take (show 12 + 4 ≤ data.length by omega)
  refine ⟨seconds, fraction, packets, tail, ?_, hpackets, htail⟩
  have hdata (m n : ℕ) : (data.drop m).take n ++ data.drop (m + n) = data.drop m := by
    rw [← drop_drop, take_append_drop]
  calc data = data.take 8 ++ ((data.drop 8).take 4 ++ ((data.drop 12).take 4 ++
        data.drop 16)) := by rw [hdata 12 4, hdata 8 4, take_append_drop]
    _ = bundle seconds fraction packets tail := by
      rw [bundle, ← hseconds, ← hfraction, hrest, ← hheader]
      simp only [append_assoc, oscBundlePrefixLen]

/-! ## Trees of bundles -/

/-- A packet: a message with the bytes of its arguments, or a bundle of packets. -/
inductive PacketTree
  | message (address typetag : CStr) (args : List UInt8)
  | bundle (seconds fraction : BitVec 32) (packets : List PacketTree)

mutual

def PacketTree.encode : PacketTree → List UInt8
  | .message address typetag args => address.encode ++ typetag.encode ++ args
  | .bundle seconds fraction packets =>
    Osc.bundle seconds fraction (PacketTree.encodeAll packets) []

def PacketTree.encodeAll : List PacketTree → List (List UInt8)
  | [] => []
  | packet :: packets => packet.encode :: PacketTree.encodeAll packets

end

mutual

/-- The messages of a packet, depth first and from left to right. -/
def PacketTree.leaves : PacketTree → List Delivery
  | .message address typetag args => [⟨address.bytes, typetag.bytes, args⟩]
  | .bundle _ _ packets => PacketTree.leavesAll packets

def PacketTree.leavesAll : List PacketTree → List Delivery
  | [] => []
  | packet :: packets => packet.leaves ++ PacketTree.leavesAll packets

end

/-- The strings can be read back, the address is not that of a bundle, and the lengths of
    the elements of a bundle have 32 bits. -/
inductive PacketTree.WellFormed : PacketTree → Prop
  | message {address typetag : CStr} (haddress : address.Short) (htypetag : typetag.Short)
      (hbundle : address.bytes ++ [0] ≠ oscBundlePrefix) (args : List UInt8) :
      WellFormed (.message address typetag args)
  | bundle {packets : List PacketTree} (hpackets : ∀ packet ∈ packets, packet.WellFormed)
      (hlength : ∀ packet ∈ packets, packet.encode.length < 2 ^ 32)
      (seconds fraction : BitVec 32) : WellFormed (.bundle seconds fraction packets)

variable (packets : List PacketTree)

theorem PacketTree.encodeAll_eq : PacketTree.encodeAll packets = packets.map PacketTree.encode := by
  induction packets with
  | nil => rfl
  | cons packet packets ih => rw [encodeAll, ih, map_cons]

theorem PacketTree.leavesAll_eq :
    PacketTree.leavesAll packets = packets.flatMap PacketTree.leaves := by
  induction packets with
  | nil => rfl
  | cons packet packets ih => rw [leavesAll, ih, flatMap_cons]

variable {address : CStr}

/-- The encoding of a message does not start with the header of a bundle. -/
theorem take_encode_ne (h : address.bytes ++ [0] ≠ oscBundlePrefix)
    (rest : List UInt8) : (address.encode ++ rest).take oscBundlePrefixLen ≠ oscBundlePrefix := by
  intro hheader
  have hsplit := take_append_drop oscBundlePrefixLen (address.encode ++ rest)
  have htake := address.takeWhile_encode rest
  rw [← hsplit, hheader] at htake
  exact h (by rw [← htake]; rfl)

theorem four_le_length_encode {s : CStr} (hs : s.Short) : 4 ≤ s.encode.length := by
  rw [← CStr.roundUp4_of_short hs, roundUp4]
  omega

theorem deliveries_message {typetag : CStr} (haddress : address.Short)
    (htypetag : typetag.Short) (hbundle : address.bytes ++ [0] ≠ oscBundlePrefix)
    (args : List UInt8) :
    deliveries (address.encode ++ typetag.encode ++ args) =
      [some ⟨address.bytes, typetag.bytes, args⟩] := by
  have hlen : ¬(address.encode ++ typetag.encode ++ args).length < oscBundlePrefixLen := by
    have haddress := four_le_length_encode haddress
    have htypetag := four_le_length_encode htypetag
    rw [length_append, length_append, oscBundlePrefixLen]
    omega
  have hne := take_encode_ne hbundle (typetag.encode ++ args)
  rw [← append_assoc] at hne
  rw [deliveries, oscDispatch_eq, if_neg hlen, if_neg hne]
  exact view_messageCalls (oscParseMessage_encode haddress htypetag args)

/-- The messages of a tree of bundles are delivered once each, in their order. -/
theorem deliveries_encode {packet : PacketTree} (h : packet.WellFormed) :
    deliveries packet.encode = packet.leaves.map some := by
  induction h with
  | message haddress htypetag hbundle args =>
    exact deliveries_message haddress htypetag hbundle args
  | @bundle packets _ hlength seconds fraction ih =>
    have hlen : ∀ bs ∈ packets.map PacketTree.encode, bs.length < 2 ^ 32 :=
      forall_mem_map.2 hlength
    rw [PacketTree.encode, PacketTree.encodeAll_eq, deliveries_bundle hlen (by decide),
      PacketTree.leaves, PacketTree.leavesAll_eq, flatMap_map, map_flatMap]
    exact flatMap_congr ih

/-- The messages of every tree of bundles are delivered once each, in their order. Whatever
    the bytes are, the dispatch ends, and everything handed over is in the buffer. A bundle
    delivers what its elements deliver, up to one that is not complete. -/
theorem oscDispatch_delivers :
    (∀ packet : PacketTree, packet.WellFormed → deliveries packet.encode = packet.leaves.map some) ∧
    (∀ data : List UInt8, (∀ fuel > data.length, dispatch fuel data = some (oscDispatch data)) ∧
        ∀ call ∈ oscDispatch data, (call.view data).isSome) ∧
    (∀ data : List UInt8, 16 ≤ data.length → data.take oscBundlePrefixLen = oscBundlePrefix →
      ∃ seconds fraction packets tail, data = bundle seconds fraction packets tail ∧
        (∀ packet ∈ packets, packet.length < 2 ^ 32) ∧ Incomplete tail) ∧
    ∀ (seconds fraction : BitVec 32) (packets : List (List UInt8)) (tail : List UInt8),
      (∀ packet ∈ packets, packet.length < 2 ^ 32) → Incomplete tail →
        deliveries (bundle seconds fraction packets tail) = packets.flatMap deliveries := by
  refine ⟨fun packet => deliveries_encode, fun data => ⟨fun fuel hfuel => dispatch_eq hfuel,
    fun call hcall => view_of_mem_oscDispatch hcall⟩, fun data => exists_bundle, ?_⟩
  intro seconds fraction packets tail hpackets htail
  exact deliveries_bundle hpackets htail seconds fraction

/-- The message `/a` with the type tag `,T`, alone in a bundle that is the first element of
    a bundle. -/
theorem oscDispatch_delivers_nested :
    deliveries (PacketTree.bundle 0 0 [.bundle 0 1 [.message ⟨[47, 97], by decide⟩
      ⟨[44, 84], by decide⟩ []], .message ⟨[47, 98], by decide⟩ ⟨[44], by decide⟩ []]).encode =
      [some ⟨[47, 97], [44, 84], []⟩, some ⟨[47, 98], [44], []⟩] := by
  refine oscDispatch_delivers.1 _ (.bundle ?_ ?_ 0 0)
  · rintro packet (_ | ⟨_, _ | ⟨_, ⟨⟩⟩⟩)
    · refine .bundle ?_ ?_ 0 1
      · rintro packet (_ | ⟨_, ⟨⟩⟩)
        exact .message (by simp [CStr.Short]) (by simp [CStr.Short]) (by decide) []
      · rintro packet (_ | ⟨_, ⟨⟩⟩)
        decide
    · exact .message (by simp [CStr.Short]) (by simp [CStr.Short]) (by decide) []
  · rintro packet (_ | ⟨_, _ | ⟨_, ⟨⟩⟩⟩) <;> decide

/-- An element that claims more than there is ends the inner bundle, and not the outer one. -/
example : deliveries (bundle 0 0 [bundle 0 1 [] [0, 0, 1, 0, 47], [47, 98, 0, 0, 44, 0, 0, 0]] []) =
    [some ⟨[47, 98], [44], []⟩] := by
  decide +kernel

end WKOpenVR.Osc
