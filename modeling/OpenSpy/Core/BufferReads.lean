import OpenSpy.Core.BufferStorage

/-!
# What the reads of a buffer look at

A run of reads, with how far into the memory the bytes lie that they inspect. The reads of a fixed
size look at what is left first, and `ReadNTS` only at whether anything is left:
`reads_inside_iff` says that a run stays in what was written if and only if each string that it
reads has its NUL there.
-/

namespace OpenSpy

open Bytes Runs

/-- The size that a read asks for, and none for a string. -/
def BufferRead.size : BufferRead → Option Nat
  | .byte => some 1
  | .short => some 2
  | .int => some 4
  | .long => some 8
  | .float => some 4
  | .double => some 8
  | .nts => none
  | .buffer out => some out.length

/-- Where the last byte that a read inspects ends. A string is inspected with its NUL, and without
one to the end of the memory and beyond. -/
def Storage.inspectedTo (s : Storage) (call : BufferRead) : Nat :=
  match call.size with
  | some size => if s.readRemaining < size then s.readCursor else s.readCursor + size
  | none =>
      if s.readRemaining < 1 then s.readCursor
      else
        let rest := s.memory.drop s.readCursor
        if 0 ∈ rest then s.readCursor + (rest.takeWhile (· ≠ 0)).length + 1
        else s.memory.length + 1

/-- A buffer that is read. `inspected` is where the last byte ends that any read inspected. A read
that does not come to an end leaves it stuck. -/
structure BufferReading where
  storage : Storage
  inspected : Nat
  stuck : Bool
  deriving DecidableEq

namespace BufferReading

/-- A buffer before its first read. -/
def start (storage : Storage) : BufferReading :=
  ⟨storage, 0, false⟩

/-- A read. -/
def step (s : BufferReading) (call : BufferRead) : BufferReading :=
  if s.stuck then s
  else
    let s := { s with inspected := max s.inspected (s.storage.inspectedTo call) }
    match s.storage.read call with
    | none => { s with stuck := true }
    | some (_, storage) => { s with storage := storage }

variable (s : BufferReading)

/-- Every read came to an end, and cursor and reads are in what was written. -/
structure Inside : Prop where
  going : s.stuck = false
  cursor : s.storage.readCursor ≤ s.storage.writeCursor
  remaining : s.storage.readRemaining ≤ s.storage.bytesWritten
  inspected : s.inspected ≤ s.storage.writeCursor

/-- A string is only read where nothing is left or a NUL is. -/
def EndsInside (call : BufferRead) : Prop :=
  call = .nts → s.storage.view.unread = [] ∨ 0 ∈ s.storage.view.unread

instance (call : BufferRead) : Decidable (s.EndsInside call) :=
  inferInstanceAs (Decidable (_ → _))

/-- The same with a written part that the memory holds. -/
structure InsideMemory : Prop extends s.Inside where
  written : s.storage.writeCursor ≤ s.storage.memory.length

variable {s}

theorem InsideMemory.ordered (h : s.InsideMemory) : s.storage.Ordered :=
  ⟨h.cursor, h.written⟩

theorem inspected_to_of_size (storage : Storage) {call : BufferRead} {size : Nat}
    (hsize : call.size = some size) :
    storage.inspectedTo call =
      if storage.readRemaining < size then storage.readCursor else storage.readCursor + size := by
  rw [Storage.inspectedTo, hsize]

/-- A read of a fixed size leaves the cursor where its bytes end. -/
theorem read_of_size (storage : Storage) {call : BufferRead} {size : Nat}
    (hsize : call.size = some size) :
    ∃ value, storage.read call =
      some (value, { storage with readCursor := storage.inspectedTo call }) := by
  have hfixed : (storage.readFixed size).2 =
      { storage with readCursor := storage.inspectedTo call } := by
    rw [Storage.readFixed, inspected_to_of_size storage hsize]
    split <;> rfl
  have hnumber : (storage.readNumber size).2 = (storage.readFixed size).2 := by
    rw [Storage.readNumber]
    split <;> next heq => rw [heq]
  cases call with
  | nts => simp [BufferRead.size] at hsize
  | buffer out =>
      obtain rfl : out.length = size := by simpa [BufferRead.size] using hsize
      have hbuffer : (storage.readBuffer out).2 = (storage.readFixed out.length).2 := by
        rw [Storage.readBuffer]
        split <;> next heq => rw [heq]
      exact ⟨_, by rw [Storage.read, hbuffer, hfixed]⟩
  | _ =>
      obtain rfl := Option.some.inj hsize
      exact ⟨_, congrArg (fun s => some (_, s)) (hnumber.trans hfixed)⟩

/-- A read that comes to an end leaves the cursor where the last inspected byte ends. -/
theorem step_read (hgoing : s.stuck = false) {call : BufferRead} {value : BufferValue}
    (hread : s.storage.read call =
      some (value, { s.storage with readCursor := s.storage.inspectedTo call })) :
    s.step call =
      { storage := { s.storage with readCursor := s.storage.inspectedTo call }
        inspected := max s.inspected (s.storage.inspectedTo call)
        stuck := false } := by
  rw [step, if_neg (by simp [hgoing])]
  simp only [hread, hgoing]

/-- Such a read stays inside if it inspects nothing that is outside. -/
theorem InsideMemory.step_read (h : s.InsideMemory) {call : BufferRead} {value : BufferValue}
    (hread : s.storage.read call =
      some (value, { s.storage with readCursor := s.storage.inspectedTo call }))
    (hto : s.storage.inspectedTo call ≤ s.storage.writeCursor) : (s.step call).InsideMemory := by
  rw [BufferReading.step_read h.going hread]
  have hremaining : ({ s.storage with readCursor := s.storage.inspectedTo call } :
      Storage).readRemaining = s.storage.writeCursor - s.storage.inspectedTo call :=
    Storage.read_remaining_eq hto
  exact
    { going := rfl
      cursor := hto
      remaining := by
        rw [hremaining]
        exact Nat.sub_le _ _
      inspected := max_le h.inspected hto
      written := h.written }

/-- The reads of a fixed size stay inside. -/
theorem InsideMemory.step_of_size (h : s.InsideMemory) {call : BufferRead} {size : Nat}
    (hsize : call.size = some size) : (s.step call).InsideMemory := by
  obtain ⟨value, hread⟩ := read_of_size s.storage hsize
  apply h.step_read hread
  have hcursor := h.cursor
  rw [inspected_to_of_size s.storage hsize, Storage.read_remaining_eq hcursor]
  split
  · exact hcursor
  · omega

/-- What is inspected of a string that has its NUL in what is left. -/
theorem inspected_of_nul {storage : Storage} (h : storage.Ordered) {str rest : Bytes}
    (hstr : 0 ∉ str) (hunread : storage.view.unread = str ++ 0 :: rest) :
    storage.inspectedTo .nts = storage.readCursor + (str.length + 1) := by
  have hlen : ¬ storage.writeCursor - storage.readCursor < 1 := by
    rw [← h.unread_length, hunread, List.length_append, List.length_cons]
    omega
  have hdrop : storage.memory.drop storage.readCursor =
      str ++ 0 :: (rest ++ storage.memory.drop storage.writeCursor) := by
    rw [h.memory_drop, hunread, List.append_assoc, List.cons_append]
  have htake (rest : Bytes) : (str ++ 0 :: rest).takeWhile (· ≠ 0) = str :=
    c_string_terminated hstr rest
  simp only [Storage.inspectedTo, BufferRead.size, Storage.read_remaining_eq h.read, if_neg hlen,
    hdrop, htake]
  rw [if_pos (by simp)]
  rfl

/-- A string is inspected to beyond what was written if its NUL is not there. -/
theorem inspected_beyond {storage : Storage} (h : storage.Ordered)
    (hleft : storage.view.unread ≠ []) (hnul : 0 ∉ storage.view.unread) :
    storage.writeCursor < storage.inspectedTo .nts := by
  have hread := h.read
  have hwritten := h.written
  have hlen := h.unread_length
  have hpos := List.length_pos_iff.mpr hleft
  have hone : ¬ storage.writeCursor - storage.readCursor < 1 := by omega
  simp only [Storage.inspectedTo, BufferRead.size, Storage.read_remaining_eq hread, if_neg hone,
    h.memory_drop]
  split
  · have htake : (storage.view.unread ++ storage.memory.drop storage.writeCursor).takeWhile
        (· ≠ 0) = storage.view.unread ++
          (storage.memory.drop storage.writeCursor).takeWhile (· ≠ 0) :=
      c_string_append (fun b hb h0 => hnul (h0 ▸ hb)) _
    rw [htake, List.length_append]
    omega
  · omega

/-- A read of a string writes nothing, and what it inspects counts. -/
theorem step_nts_inspected (hgoing : s.stuck = false) :
    (s.step .nts).storage.writeCursor = s.storage.writeCursor ∧
      s.storage.inspectedTo .nts ≤ (s.step .nts).inspected := by
  have hwrite : ∀ value storage, s.storage.read .nts = some (value, storage) →
      storage.writeCursor = s.storage.writeCursor := by
    intro value storage hread
    simp only [Storage.read, Storage.readNTS] at hread
    split at hread
    · cases hread
      rfl
    · split at hread
      · cases hread
        rfl
      · cases hread
  rw [step, if_neg (by simp [hgoing])]
  cases hread : s.storage.read .nts with
  | none =>
      simp only [hread]
      exact ⟨trivial, le_max_right _ _⟩
  | some result =>
      simp only [hread]
      exact ⟨hwrite result.1 result.2 hread, le_max_right _ _⟩

/-- A string that ends inside is read inside. -/
theorem InsideMemory.step_nts (h : s.InsideMemory) (hends : s.EndsInside .nts) :
    (s.step .nts).InsideMemory := by
  have hordered := h.ordered
  have hlen := hordered.unread_length
  rcases hends rfl with hempty | hnul
  · have hnone : s.storage.readRemaining < 1 := by
      rw [Storage.read_remaining_eq h.cursor, ← hlen, hempty]
      exact Nat.zero_lt_one
    have hto : s.storage.inspectedTo .nts = s.storage.readCursor := by
      simp only [Storage.inspectedTo, BufferRead.size, if_pos hnone]
    have hread : s.storage.read .nts = some (.nts [],
        { s.storage with readCursor := s.storage.inspectedTo .nts }) := by
      rw [hto, Storage.read, Storage.readNTS, if_pos hnone]
      rfl
    exact h.step_read hread (hto.le.trans h.cursor)
  · obtain ⟨str, rest, hunread, hstr⟩ := List.eq_append_cons_of_mem hnul
    have hto := inspected_of_nul hordered hstr hunread
    rw [hunread, List.length_append, List.length_cons] at hlen
    have hread : s.storage.read .nts = some (.nts str,
        { s.storage with readCursor := s.storage.inspectedTo .nts }) := by
      rw [hto, Storage.read, hordered.read_nts hstr hunread]
      rfl
    exact h.step_read hread (by omega)

/-- A read whose string ends inside stays inside. -/
theorem InsideMemory.step (h : s.InsideMemory) {call : BufferRead} (hends : s.EndsInside call) :
    (s.step call).InsideMemory := by
  cases hsize : call.size with
  | some size => exact h.step_of_size hsize
  | none =>
      obtain rfl : call = .nts := by
        cases call <;> simp [BufferRead.size] at hsize
        rfl
      exact h.step_nts hends

/-- A read that stays inside reads no string without its NUL. -/
theorem InsideMemory.ends_inside (h : s.InsideMemory) {call : BufferRead}
    (hinside : (s.step call).Inside) : s.EndsInside call := by
  rintro rfl
  by_contra hnot
  rw [not_or] at hnot
  have hbeyond := inspected_beyond h.ordered hnot.1 hnot.2
  have hinspected := hinside.inspected
  obtain ⟨hsame, hto⟩ := step_nts_inspected h.going
  omega

theorem start_inside {storage : Storage} (h : storage.Ordered) :
    (start storage).InsideMemory where
  going := rfl
  cursor := h.read
  remaining := by
    show storage.readRemaining ≤ storage.writeCursor
    rw [Storage.read_remaining_eq h.read]
    exact Nat.sub_le _ _
  inspected := Nat.zero_le _
  written := h.written

end BufferReading

/-- In a run of reads of an ordered buffer every read comes to an end, the read cursor stays in what
was written, what is left does not wrap and every inspected byte was written, if and only if each
string is read where nothing is left or a NUL is in what is left. -/
theorem reads_inside_iff {storage : Storage} (hordered : storage.Ordered)
    (run : List BufferRead) :
    (∀ before, before <+: run →
        (after BufferReading.step (.start storage) before).Inside) ↔
      AtEach BufferReading.step (.start storage) BufferReading.EndsInside run :=
  shown_throughout_iff (BufferReading.start_inside hordered) (fun _ h => h.toInside)
    (fun _ _ _ h hends => h.step hends) fun _ _ _ h hinside => h.ends_inside hinside

/-- Three strings in a block of six bytes, and a number that is not there. -/
theorem reads_inside_of_strings :
    (after BufferReading.step (.start ⟨[97, 0, 0, 7, 8, 9], 6, true, 0, 4, 3⟩)
      [BufferRead.nts, .nts, .short, .byte, .nts]).Inside :=
  (reads_inside_iff ⟨by decide, by decide⟩ _).mpr (by decide) _ List.prefix_rfl

/-- One byte is written, and a string is read. -/
theorem string_read_outside :
    ¬ ∀ storage : Storage, storage.Ordered → ∀ run : List BufferRead, ∀ before, before <+: run →
      (after BufferReading.step (.start storage) before).Inside := by
  intro h
  have hcursor := (h ((Storage.ofSize [0, 0] 1).writeByte [0] 55) ⟨by decide, by decide⟩ [.nts] _
    List.prefix_rfl).cursor
  exact absurd hcursor (by decide)

end OpenSpy
