import Mathlib.Data.List.Nodup
import Mathlib.Logic.Function.Basic
import OpenSpy.Library.Decimal
import OpenSpy.Library.Glob

/-!
# The key space of redis

`SCAN` with `MATCH` returns the keys that a pattern stands for in batches, each with the cursor to
ask for the next one with. With the last batch the cursor is 0. A `KeyScan` returns each key once.

Commands may be sent before the replies to earlier ones are read. A `Connection` has the replies
that wait, in the order of their commands.
-/

namespace Redis

open Bytes

/-- The keys with their values, of any type. -/
abbrev KeySpace (α : Type*) := Bytes → Option α

/-- The characters that have a meaning in a pattern. -/
def patternCharacters : Bytes :=
  ascii "*?[\\"

/-- A text in which each character stands for itself. -/
def Plain (word : Bytes) : Prop :=
  ∀ b ∈ word, b ∉ patternCharacters

instance (word : Bytes) : Decidable (Plain word) :=
  inferInstanceAs (Decidable (∀ b ∈ word, b ∉ patternCharacters))

/-- How `MATCH` compares a pattern with a key: a text that is plain stands for itself, and with a
star behind it for the keys that begin with it. -/
structure KeyPattern where
  stands : Bytes → Bytes → Bool
  whole : ∀ {word}, Plain word → ∀ key, stands word key = true ↔ key = word
  beginning : ∀ {word}, Plain word → ∀ key, stands (word ++ ascii "*") key = true ↔ word <+: key

section Patterns

/-- Whether a symbol of a pattern without brackets is for a character. -/
def like (symbol letter : UInt8) : Bool :=
  symbol == char '?' || symbol == letter

variable {word : Bytes}

theorem Plain.not_star (h : Plain word) : ∀ symbol ∈ word, ¬ (symbol == char '*') = true := by
  intro symbol hmem heq
  refine h symbol hmem ?_
  rw [beq_iff_eq.mp heq]
  decide

/-- A plain text is like itself only. -/
theorem Plain.alike_iff (h : Plain word) (letters : Bytes) :
    Glob.Alike like word letters ↔ letters = word := by
  induction word generalizing letters with
  | nil => exact List.forall₂_nil_left_iff
  | cons symbol word ih =>
      have hword := ih fun b hb => h b (List.mem_cons_of_mem symbol hb)
      have hsymbol : symbol ≠ char '?' := by
        rintro rfl
        exact h _ List.mem_cons_self (by decide)
      rw [Glob.Alike, List.forall₂_cons_left_iff]
      constructor
      · rintro ⟨letter, rest, hlike, hrest, rfl⟩
        have heq : symbol = letter := by simpa [like, hsymbol] using hlike
        rw [(hword rest).mp hrest, heq]
      · rintro rfl
        exact ⟨symbol, word, by simp [like], (hword word).mpr rfl, rfl⟩

theorem glob_star_symbol (text : Bytes) :
    Glob.glob (· == char '*') like (ascii "*") text = true :=
  (Glob.glob_star (by decide) [] text).mpr ⟨[], List.nil_suffix, rfl⟩

/-- The pattern matching of redis, for patterns without brackets and backslashes. -/
def starPattern : KeyPattern where
  stands := Glob.glob (· == char '*') like
  whole hplain key := by
    have hglob : Glob.glob (· == char '*') like (_ ++ []) key = true ↔ _ :=
      Glob.glob_word hplain.not_star [] key
    rw [List.append_nil] at hglob
    simp [hglob, hplain.alike_iff]
  beginning hplain key := by
    rw [Glob.glob_word hplain.not_star]
    simp [hplain.alike_iff, glob_star_symbol, List.IsPrefix, eq_comm]

end Patterns

section Keys

variable {α : Type*}

/-- `DEL`. -/
def del (keys : KeySpace α) (key : Bytes) : KeySpace α :=
  Function.update keys key none

/-- Deleted keys are gone, and the others stay as they are. -/
theorem foldl_del (keys : KeySpace α) (gone : List Bytes) (key : Bytes) :
    gone.foldl del keys key = if key ∈ gone then none else keys key := by
  induction gone generalizing keys with
  | nil => simp
  | cons other gone ih =>
      rw [List.foldl_cons, ih, del]
      by_cases hother : key = other
      · subst hother
        simp
      · simp [hother]

/-- The right keys are gone if they are those that were deleted, among the keys that exist. -/
theorem foldl_del_eq_iff {keys : KeySpace α} {gone : List Bytes} {own : Bytes → Prop}
    [DecidablePred own] :
    (gone.foldl del keys = fun key => if own key then none else keys key) ↔
      ∀ key, keys key ≠ none → (key ∈ gone ↔ own key) := by
  rw [funext_iff]
  refine forall_congr' fun key => ?_
  rw [foldl_del]
  by_cases hgone : key ∈ gone <;> by_cases hown : own key <;> simp [hgone, hown, eq_comm]

/-- The replies to the `SCAN` commands of a complete scan. -/
structure KeyScan (glob : KeyPattern) (keys : KeySpace α) (pattern : Bytes) where
  batches : List (Nat × List Bytes)
  nodup : (batches.flatMap Prod.snd).Nodup
  complete : ∀ key, key ∈ batches.flatMap Prod.snd ↔
    keys key ≠ none ∧ glob.stands pattern key = true
  ends : ∃ front last, batches = front ++ [(0, last)] ∧ ∀ batch ∈ front, batch.1 ≠ 0

/-- A key space with these keys. -/
def keysOf (present : List Bytes) : KeySpace Unit :=
  fun key => if key ∈ present then some () else none

/-- A scan that returns them in one batch. -/
def KeyScan.single (glob : KeyPattern) {present : List Bytes} (hnodup : present.Nodup)
    (pattern : Bytes) : KeyScan glob (keysOf present) pattern where
  batches := [(0, present.filter (glob.stands pattern))]
  nodup := by
    simpa using hnodup.filter _
  complete key := by
    simp [keysOf]
  ends := ⟨[], _, rfl, by simp⟩

end Keys

section Connections

/-- The element of a reply that has the cursor. -/
inductive Element where
  | string (text : Bytes)
  | integer (value : Int)
  | other
  deriving DecidableEq, Repr

/-- A reply: of `DEL` the number of keys that it deleted, of `SCAN` two elements, or fewer of an
error. -/
inductive Reply where
  | deleted (count : Nat)
  | scan (cursor : Element) (keys : List Bytes)
  | error
  deriving DecidableEq, Repr

variable {α : Type*} {glob : KeyPattern} {keys : KeySpace α} {pattern : Bytes}

/-- What redis answers in a scan. -/
def KeyScan.replies (scan : KeyScan glob keys pattern) : List Reply :=
  scan.batches.map fun batch => .scan (.string (printNat batch.1)) batch.2

/-- A client's connection to redis. -/
structure Connection (α : Type*) where
  keys : KeySpace α
  waiting : List Reply

namespace Connection

variable (conn : Connection α)

/-- `redisAppendCommand` with `DEL`, whose argument is a C string. -/
def appendDel (key : Bytes) : Connection α where
  keys := del conn.keys (cString key)
  waiting := conn.waiting ++ [.deleted (if (conn.keys (cString key)).isSome then 1 else 0)]

/-- `redisGetReply`. -/
def getReply : Option Reply × Connection α :=
  (conn.waiting.head?, { conn with waiting := conn.waiting.tail })

/-- `redisCommand` with `SCAN`, to which redis has this reply. -/
def scan (reply : Reply) : Option Reply × Connection α :=
  { conn with waiting := conn.waiting ++ [reply] }.getReply

/-- Several commands one after the other. -/
def appendDels (batch : List Bytes) : Connection α :=
  batch.foldl appendDel conn

/-- As many replies. -/
def getReplies (batch : List Bytes) : Connection α :=
  batch.foldl (fun conn _ => conn.getReply.2) conn

@[simp] theorem append_dels_keys (batch : List Bytes) :
    (conn.appendDels batch).keys = (batch.map cString).foldl del conn.keys := by
  rw [appendDels, List.foldl_map]
  exact (List.foldl_hom Connection.keys fun _ _ => rfl).symm

theorem append_dels_waiting (batch : List Bytes) :
    (conn.appendDels batch).waiting.length = conn.waiting.length + batch.length := by
  induction batch generalizing conn with
  | nil => rfl
  | cons key batch ih =>
      rw [appendDels, List.foldl_cons]
      show ((conn.appendDel key).appendDels batch).waiting.length = _
      rw [ih, appendDel, List.length_append, List.length_singleton, List.length_cons]
      omega

@[simp] theorem get_replies_eq (batch : List Bytes) :
    conn.getReplies batch = { conn with waiting := conn.waiting.drop batch.length } := by
  induction batch generalizing conn with
  | nil => rfl
  | cons key batch ih =>
      rw [getReplies, List.foldl_cons]
      show conn.getReply.2.getReplies batch = _
      rw [ih, getReply, List.drop_tail]
      rfl

/-- Commands whose replies are all read leave nothing behind but what they did. -/
theorem get_replies_append_dels {conn : Connection α} (h : conn.waiting = [])
    (batch : List Bytes) :
    (conn.appendDels batch).getReplies batch =
      ⟨(batch.map cString).foldl del conn.keys, []⟩ := by
  have hlength := conn.append_dels_waiting batch
  rw [h, List.length_nil, Nat.zero_add] at hlength
  rw [get_replies_eq, append_dels_keys, ← hlength, List.drop_length]

/-- With nothing waiting, a reply is the one to the command before it. -/
theorem scan_eq {conn : Connection α} (h : conn.waiting = []) (reply : Reply) :
    conn.scan reply = (some reply, conn) := by
  obtain ⟨keys, waiting⟩ := conn
  cases h
  rfl

end Connection

end Connections

end Redis
