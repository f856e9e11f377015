import WKOpenVR.Text

/-!
# Texts for the chatbox

A text for the chatbox has at most a limit of bytes. A longer one is split into chunks
(`SplitTextForChatbox`), at the last whitespace within the limit if there is one, and
otherwise at the last boundary of a UTF-8 character; or it is cut to the first chunk, with
an ellipsis (`TruncateTextForChatbox`). What is left of a text never exceeds the limit
(`length_truncateTextForChatbox_le`).
-/

namespace WKOpenVR.Captions

open Text

def vrchatChatboxByteLimit : ℕ := 144

variable (ch : UInt8)

def chatboxAsciiSpace : Bool := ch = 32 || ch = 9 || ch = 13 || ch = 10

def chatboxUtf8Continuation : Bool := ch &&& 0xC0 == 0x80

/-- The loop of `ClampChatboxUtf8Boundary`: it goes back over continuation bytes. -/
def clampLoop (text : List UInt8) : ℕ → ℕ
  | 0 => 0
  | pos + 1 =>
    if chatboxUtf8Continuation (text.getD (pos + 1) 0) then clampLoop text pos else pos + 1

variable (text : List UInt8) (pos : ℕ)

def clampChatboxUtf8Boundary : ℕ :=
  if pos ≥ text.length then text.length else clampLoop text pos

def trimChatboxChunk : List UInt8 :=
  (text.dropWhile chatboxAsciiSpace).rdropWhile chatboxAsciiSpace

/-- The position of the last whitespace before `i`. -/
def lastSpace (text : List UInt8) : ℕ → Option ℕ
  | 0 => none
  | i + 1 => if chatboxAsciiSpace (text.getD i 0) then some i else lastSpace text i

/-- A chunk is added to the list unless it is empty. -/
def pushChunk (chunk : List UInt8) (chunks : List (List UInt8)) : List (List UInt8) :=
  if chunk.isEmpty then chunks else chunk :: chunks

theorem clampLoop_le : clampLoop text pos ≤ pos := by
  induction pos with
  | zero => exact le_rfl
  | succ pos ih =>
    rw [clampLoop]
    split_ifs
    · exact ih.trans (Nat.le_succ _)
    · exact le_rfl

theorem clampChatboxUtf8Boundary_le : clampChatboxUtf8Boundary text pos ≤ pos := by
  rw [clampChatboxUtf8Boundary]
  split_ifs with h
  · exact h
  · exact clampLoop_le text pos

/-- The loop goes on with a shorter text. -/
theorem length_drop_dropWhile_lt {p : UInt8 → Bool} {text : List UInt8} {n : ℕ}
    (h : ¬(text.dropWhile p).isEmpty = true) (hn : n ≠ 0) :
    ((text.dropWhile p).drop n).length < text.length := by
  have hle : (text.dropWhile p).length ≤ text.length := (List.dropWhile_suffix p).length_le
  have hpos : (text.dropWhile p).length ≠ 0 := by simpa using h
  rw [List.length_drop]
  omega

/-- The loop of `SplitTextForChatbox`, over the text from `offset` on. A boundary at
    `offset` or before it ends the loop: it is the one at `0` of what is left. -/
def splitLoop (byteLimit : ℕ) (text : List UInt8) : List (List UInt8) :=
  let rest := text.dropWhile chatboxAsciiSpace
  if rest.isEmpty then []
  else if rest.length ≤ byteLimit then pushChunk (trimChatboxChunk rest) []
  else
    let hardEnd := clampChatboxUtf8Boundary rest byteLimit
    if hardEnd = 0 then []
    else
      match lastSpace rest hardEnd with
      | some (split + 1) =>
        pushChunk (trimChatboxChunk (rest.take (split + 1)))
          (splitLoop byteLimit (rest.drop (split + 2)))
      | _ =>
        pushChunk (trimChatboxChunk (rest.take hardEnd)) (splitLoop byteLimit (rest.drop hardEnd))
termination_by text.length
decreasing_by
  · exact length_drop_dropWhile_lt (by assumption) (Nat.succ_ne_zero _)
  · exact length_drop_dropWhile_lt (by assumption) (by assumption)

variable (byteLimit : ℕ)

def splitTextForChatbox : List (List UInt8) :=
  if byteLimit = 0 then [] else splitLoop byteLimit text

def truncateTextForChatbox : List UInt8 :=
  if text.length ≤ byteLimit then text
  else
    match splitTextForChatbox text byteLimit with
    | [] => []
    | front :: _ =>
      if byteLimit ≤ 3 then front.take byteLimit
      else if front.length ≤ byteLimit - 3 then front ++ ascii "..."
      else
        (front.take (clampChatboxUtf8Boundary front (byteLimit - 3))).rdropWhile
          chatboxAsciiSpace ++ ascii "..."

/-- What is left of a text does not exceed the limit. -/
theorem length_truncateTextForChatbox_le :
    (truncateTextForChatbox text byteLimit).length ≤ byteLimit := by
  have hdots : (ascii "...").length = 3 := by decide
  by_cases hlength : text.length ≤ byteLimit
  · rw [truncateTextForChatbox, if_pos hlength]
    exact hlength
  rw [truncateTextForChatbox, if_neg hlength]
  cases splitTextForChatbox text byteLimit with
  | nil => exact Nat.zero_le _
  | cons front chunks =>
    dsimp only
    split_ifs with hlimit hfront
    · exact List.length_take_le _ _
    · rw [List.length_append, hdots]
      omega
    · have hclamp := clampChatboxUtf8Boundary_le front (byteLimit - 3)
      have htake := List.length_take_le (clampChatboxUtf8Boundary front (byteLimit - 3)) front
      have htrim := (List.rdropWhile_prefix chatboxAsciiSpace
        (front.take (clampChatboxUtf8Boundary front (byteLimit - 3)))).length_le
      rw [List.length_append, hdots]
      omega

end WKOpenVR.Captions
