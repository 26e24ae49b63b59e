import Mathlib.Data.List.Basic

/-!
# Sending files

`loop.sendfile` and `loop.sock_sendfile` copy a file in blocks. Both read from
the file's current position and seek beforehand only if the offset is not zero,
so with an offset of zero they send from wherever the file stands.
-/

namespace Rsloop.Sendfile

open List

variable {Byte : Type}

structure BinaryFile (Byte : Type) where
  contents : List Byte
  position : Nat

/-- The bytes between the position and the end. -/
def BinaryFile.unread (file : BinaryFile Byte) : List Byte :=
  file.contents.drop file.position

/-- A read fills any part of the view but leaves it empty only at the end of
the file: `size` says how much it would like to return. -/
def BinaryFile.readinto (file : BinaryFile Byte) (view size : Nat) : List Byte :=
  file.unread.take (min view (max 1 size))

def BinaryFile.seek (file : BinaryFile Byte) (position : Nat) : BinaryFile Byte :=
  { file with position }

/-- What a call has transmitted, what it returns and how it leaves the file. -/
structure Transmission (Byte : Type) where
  sent : List Byte
  totalSent : Nat
  file : BinaryFile Byte

/-- A block that was read is sent and counted. -/
def Transmission.add (s : Transmission Byte) (read : List Byte) : Transmission Byte where
  sent := s.sent ++ read
  totalSent := s.totalSent + read.length
  file := s.file.seek (s.file.position + read.length)

/-- The block size of the next iteration, none when the count is reached. -/
def nextBlocksize (count : Option Nat) (blocksize totalSent : Nat) : Option Nat :=
  match count with
  | none => some blocksize
  | some count =>
    if min (count - totalSent) blocksize = 0 then none
    else some (min (count - totalSent) blocksize)

/-- The copying loop. `sizes` gives the size of the read that is made when so
many bytes are sent. -/
def sendBlocks (sizes : Nat → Nat) (count : Option Nat) (blocksize : Nat)
    (s : Transmission Byte) : Transmission Byte :=
  match nextBlocksize count blocksize s.totalSent with
  | none => s
  | some blocksize =>
    let read := s.file.readinto blocksize (sizes s.totalSent)
    if _nonempty : read = [] then s
    else sendBlocks sizes count blocksize (s.add read)
termination_by s.file.unread.length
decreasing_by
  have some := List.length_pos_iff.mpr _nonempty
  simp only [read, BinaryFile.readinto, BinaryFile.unread, Transmission.add, BinaryFile.seek,
    List.length_take, List.length_drop] at some ⊢
  omega

/-- `min(count, 16384) if count else 16384` -/
def firstBlocksize (count : Option Nat) : Nat :=
  if count.getD 0 = 0 then 16384 else min (count.getD 0) 16384

/-- From the seek before the loop to the one in the `finally` block. -/
def copy (sizes : Nat → Nat) (count limit : Option Nat) (offset : Nat)
    (file : BinaryFile Byte) : Transmission Byte :=
  let file := if offset = 0 then file else file.seek offset
  let result := sendBlocks sizes limit (firstBlocksize count) ⟨[], 0, file⟩
  if result.totalSent > 0 then
    { result with file := result.file.seek (offset + result.totalSent) }
  else result

def loopSendfile (transport : String) (isClosing fallback : Bool) (sizes : Nat → Nat)
    (file : BinaryFile Byte) (offset : Nat) (count : Option Nat) :
    Except String (Transmission Byte) :=
  if isClosing then .error "Transport is closing"
  else if !fallback then
    .error ("fallback is disabled and native sendfile is not supported for transport " ++ transport)
  else .ok (copy sizes count count offset file)

/-- The socket variant checks its arguments and takes a count of zero for none
in the loop (`if count`), where the check has already refused it. -/
def sockSendfile (sock : String) (nonBlocking binary isStream fallback : Bool)
    (sizes : Nat → Nat) (file : BinaryFile Byte) (offset : Nat) (count : Option Nat) :
    Except String (Transmission Byte) :=
  if !nonBlocking then .error "the socket must be non-blocking"
  else if !binary then .error "file should be opened in binary mode"
  else if !isStream then .error "only SOCK_STREAM type sockets are supported"
  else if count = some 0 then .error "count must be a positive integer (got 0)"
  else if !fallback then
    .error ("fallback is disabled and native sendfile is not supported for socket " ++ sock)
  else .ok (copy sizes count (count.filter (· ≠ 0)) offset file)

/-- At most `count` bytes. -/
def takeCount (count : Option Nat) (bytes : List Byte) : List Byte :=
  match count with
  | none => bytes
  | some count => bytes.take count

/-- The bytes from `offset` up to the smaller of `offset + count` and the end. -/
def BinaryFile.range (file : BinaryFile Byte) (offset : Nat) (count : Option Nat) : List Byte :=
  takeCount count (file.contents.drop offset)

/-! ## The loop -/

variable {sizes : Nat → Nat} {count : Option Nat} {blocksize : Nat}

/-- What remains of the count once `totalSent` bytes are sent. -/
def remaining (count : Option Nat) (totalSent : Nat) : Option Nat :=
  count.map (· - totalSent)

theorem nextBlocksize_eq_none {totalSent : Nat} (positive : 0 < blocksize)
    (ends : nextBlocksize count blocksize totalSent = none) (bytes : List Byte) :
    takeCount (remaining count totalSent) bytes = [] := by
  cases count with
  | none => cases ends
  | some count =>
    simp only [nextBlocksize, ite_eq_left_iff, reduceCtorEq, imp_false, not_not] at ends
    have reached : count - totalSent = 0 := by omega
    simp [remaining, takeCount, reached]

theorem of_nextBlocksize_eq_some {totalSent next : Nat}
    (positive : 0 < blocksize)
    (continues : nextBlocksize count blocksize totalSent = some next) :
    0 < next ∧ ∀ limit, count = some limit → next ≤ limit - totalSent := by
  cases count with
  | none =>
    cases continues
    exact ⟨positive, nofun⟩
  | some count =>
    simp only [nextBlocksize, Option.ite_none_left_eq_some, Option.some.injEq] at continues
    obtain ⟨notReached, rfl⟩ := continues
    refine ⟨Nat.pos_of_ne_zero notReached, ?_⟩
    rintro limit ⟨⟩
    exact Nat.min_le_left _ _

/-- A read that stays within the count takes the first bytes of what is to be
sent. -/
theorem takeCount_remaining {totalSent size : Nat} (bytes : List Byte)
    (fits : ∀ limit, count = some limit → size ≤ limit - totalSent) :
    takeCount (remaining count totalSent) bytes = bytes.take size ++
      takeCount (remaining count (totalSent + size)) (bytes.drop size) := by
  cases count with
  | none => exact (take_append_drop size bytes).symm
  | some count =>
    have within := fits count rfl
    change bytes.take (count - totalSent) =
      bytes.take size ++ (bytes.drop size).take (count - (totalSent + size))
    rw [show count - totalSent = size + (count - (totalSent + size)) by omega, take_add]

@[simp] theorem Transmission.add_nil (s : Transmission Byte) : s.add [] = s := by
  simp [Transmission.add, BinaryFile.seek]

theorem readinto_eq_nil {file : BinaryFile Byte} {view size : Nat}
    (positive : 0 < view)
    (read : file.readinto view size = []) : file.unread = [] := by
  refine (take_eq_nil_iff.mp read).resolve_left ?_
  omega

theorem take_length_readinto (file : BinaryFile Byte) (view size : Nat) :
    file.unread.take (file.readinto view size).length = file.readinto view size := by
  simp [BinaryFile.readinto, take_eq_take_iff]

theorem sendBlocks_eq (positive : 0 < blocksize) (s : Transmission Byte) :
    sendBlocks sizes count blocksize s =
      s.add (takeCount (remaining count s.totalSent) s.file.unread) := by
  fun_induction sendBlocks sizes count blocksize s with
  | case1 blocksize s ends =>
    rw [nextBlocksize_eq_none positive ends, Transmission.add_nil]
  | case2 blocksize s next continues read empty =>
    rw [readinto_eq_nil (of_nextBlocksize_eq_some positive continues).1 empty]
    cases count <;> simp [remaining, takeCount]
  | case3 blocksize s next continues read _ ih =>
    obtain ⟨nextPositive, fits⟩ := of_nextBlocksize_eq_some positive continues
    have short : read.length ≤ next := Nat.le_trans (length_take_le _ _) (Nat.min_le_left _ _)
    rw [ih nextPositive, takeCount_remaining s.file.unread
      fun limit counted => Nat.le_trans short (fits limit counted), take_length_readinto]
    simp [Transmission.add, BinaryFile.seek, BinaryFile.unread, read, drop_drop, Nat.add_assoc]

/-! ## Both calls -/

/-- A call sends from where the first read finds the file. -/
theorem copy_eq (sizes : Nat → Nat) (count : Option Nat)
    (file : BinaryFile Byte) (offset : Nat) :
    let start := if offset = 0 then file.position else offset
    let result := copy sizes count count offset file
    result.sent = file.range start count ∧ result.totalSent = (file.range start count).length ∧
      (0 < result.totalSent → result.file.position = offset + result.totalSent) := by
  have started : (if offset = 0 then file else file.seek offset) =
      file.seek (if offset = 0 then file.position else offset) := by
    split_ifs <;> rfl
  have whole : remaining count 0 = count := by cases count <;> rfl
  have positive : 0 < firstBlocksize count := by
    unfold firstBlocksize
    split_ifs <;> omega
  simp only [copy, started, sendBlocks_eq positive, whole, Transmission.add, nil_append,
    Nat.zero_add]
  generalize (if offset = 0 then file.position else offset) = start
  split_ifs with sent
  · exact ⟨rfl, rfl, fun _ => rfl⟩
  · exact ⟨rfl, rfl, fun some => absurd some sent⟩

/-- Both calls return the same. They send the range, return its length and
leave the file behind it if and only if the offset is not zero or the bytes
from the file's position are those of the range. -/
theorem sendfile_range (transport sock : String) (sizes : Nat → Nat)
    (file : BinaryFile Byte)
    (offset : Nat) (count : Option Nat) (counted : count ≠ some 0) :
    ∃ result, loopSendfile transport false true sizes file offset count = .ok result ∧
      sockSendfile sock true true true true sizes file offset count = .ok result ∧
      ((result.sent = file.range offset count ∧
          result.totalSent = (file.range offset count).length ∧
          (0 < result.totalSent → result.file.position = offset + result.totalSent)) ↔
        offset ≠ 0 ∨ file.range file.position count = file.range 0 count) := by
  have same : count.filter (· ≠ 0) = count := by
    cases count with
    | none => rfl
    | some count => simpa using counted
  obtain ⟨sent, totalSent, left⟩ := copy_eq sizes count file offset
  refine ⟨copy sizes count count offset file, rfl, ?_, ?_⟩
  · simp only [sockSendfile, same, if_neg counted]
    rfl
  · rw [sent, totalSent]
    rw [totalSent] at left
    by_cases atStart : offset = 0
    · subst atStart
      refine ⟨fun meets => .inr meets.1, fun placed => ?_⟩
      have equal := placed.resolve_left (fun moved => moved rfl)
      exact ⟨equal, congrArg length equal, left⟩
    · rw [if_neg atStart] at left ⊢
      exact ⟨fun _ => .inl atStart, fun _ => ⟨rfl, rfl, left⟩⟩

/-- Six bytes of which the first two are skipped, read two at a time. -/
theorem sendfile_range_skipped :
    ∃ result, loopSendfile "t" false true (fun _ => 2) ⟨[1, 2, 3, 4, 5, 6], 1⟩ 2 (some 3) =
        .ok result ∧
      sockSendfile "s" true true true true (fun _ => 2) ⟨[1, 2, 3, 4, 5, 6], 1⟩ 2 (some 3) =
        .ok result ∧
      result.sent = [3, 4, 5] ∧ result.totalSent = 3 ∧
      (0 < result.totalSent → result.file.position = 2 + result.totalSent) := by
  obtain ⟨result, sent, sockSent, meets⟩ :=
    sendfile_range "t" "s" (fun _ => 2) ⟨[1, 2, 3, 4, 5, 6], 1⟩ 2 (some 3) nofun
  exact ⟨result, sent, sockSent, meets.mpr (.inl nofun)⟩

/-- With an offset of zero a file that stands elsewhere is sent from there. -/
theorem sendfile_from_position : ∃ result,
      loopSendfile "t" false true (fun _ => 16384) ⟨[1, 2, 3, 4, 5, 6], 3⟩ 0 none = .ok result ∧
      sockSendfile "s" true true true true (fun _ => 16384) ⟨[1, 2, 3, 4, 5, 6], 3⟩ 0 none =
        .ok result ∧
      result.sent = [4, 5, 6] ∧ result.totalSent = 3 ∧
      (⟨[1, 2, 3, 4, 5, 6], 3⟩ : BinaryFile Nat).range 0 none = [1, 2, 3, 4, 5, 6] := by
  obtain ⟨sent, totalSent, -⟩ := copy_eq (fun _ => 16384) none ⟨[1, 2, 3, 4, 5, 6], 3⟩ 0
  exact ⟨_, rfl, rfl, sent, totalSent, rfl⟩

end Rsloop.Sendfile
