import OpenSpy.Peerchat.ChannelStore
import OpenSpy.Peerchat.UsermodeCache

/-!
# Temporary usermodes of a deleted channel

A usermode with a negative id is temporary. `DeleteTemporaryUsermodesForChannel` scans the
usermodes of a channel to delete the temporary ones, but it looks for their ids in the array of the
reply, not in its elements, and an array is no string. `delete_channel_eq` says that it deletes
nothing, whatever the replies are, and `temporary_deleted_iff` what is left of the promise.
-/

namespace OpenSpy.Peerchat

open Bytes ChannelStore

/-- `redisReply`. Only an array has elements, and of the other types only a string has a text. -/
inductive RedisReply where
  | string (str : Bytes)
  | integer (value : Int)
  | array (element : List RedisReply)
  | other

/-- `element`. -/
def RedisReply.elements : RedisReply → List RedisReply
  | array element => element
  | _ => []

/-- The cursor of a scan, from the first element of its reply. -/
def nextCursor (cursor : Int) : RedisReply → Int
  | .string str => atoi str
  | .integer value => MachineInt.int32 value
  | _ => cursor

/-- `DEL` of a record. -/
def UsermodeCache.delete (cache : UsermodeCache) (key : Bytes) : UsermodeCache :=
  { cache with records := Function.update cache.records key fun _ => none }

/-- The body of the loop over the elements of a reply to `HSCAN`: `i` is the index of an element
of `scanned`. -/
def deleteTemporaryUsermode (scanned : RedisReply) (cache : UsermodeCache) (i : Nat) :
    UsermodeCache :=
  if i % 2 = 0 then
    match scanned with
    | .string str => if atoi str < 0 then cache.delete (usermodeKey (cString str)) else cache
    | _ => cache
  else cache

/-- `DeleteTemporaryUsermodesForChannel`, with the replies of the scan. There is no reply if the
command fails. -/
def deleteTemporaryUsermodesForChannel (cursor : Int) (cache : UsermodeCache) :
    List (Option RedisReply) → UsermodeCache
  | [] | none :: _ => cache
  | some reply :: replies =>
      match reply.elements with
      | first :: scanned :: _ =>
          let cursor := nextCursor cursor first
          let cache :=
            (List.range scanned.elements.length).foldl (deleteTemporaryUsermode scanned) cache
          if cursor = 0 then cache
          else deleteTemporaryUsermodesForChannel cursor cache replies
      | _ => cache

/-- `DeleteChannelById` with the scan for its temporary usermodes. -/
def deleteChannelByIdScanned (env : Environment) (replies : List (Option RedisReply))
    (store : ChannelStore) (channelId : BitVec 32) : ChannelStore :=
  let channel := lookupChannelById env store channelId
  let usermodes := deleteTemporaryUsermodesForChannel 0 store.usermodes replies
  { store with
    channelname := Function.update store.channelname (cString channel.channelName) none
    usermodes :=
      { usermodes with
        channels := Function.update usermodes.channels channelId fun _ => none } }

/-- No temporary usermode of a channel has a record. -/
def NoTemporary (channels : BitVec 32 → Redis.Hash) (channelId : BitVec 32)
    (cache : UsermodeCache) : Prop :=
  ∀ id : BitVec 32, id.toInt < 0 → (channels channelId (printBits id)).isSome →
    cache.hashOf id = fun _ => none

/-- A reply that has elements is no string. -/
theorem delete_temporary_usermode_eq (scanned : RedisReply) (cache : UsermodeCache) :
    (List.range scanned.elements.length).foldl (deleteTemporaryUsermode scanned) cache = cache := by
  cases scanned with
  | array element =>
      have hstep (cache : UsermodeCache) (i : Nat) :
          deleteTemporaryUsermode (.array element) cache i = cache := by
        unfold deleteTemporaryUsermode
        split <;> rfl
      generalize List.range (RedisReply.array element).elements.length = indices
      induction indices with
      | nil => rfl
      | cons i indices ih => rw [List.foldl_cons, hstep, ih]
  | _ => rfl

/-- The scan deletes nothing. -/
theorem delete_temporary_eq (cursor : Int) (cache : UsermodeCache)
    (replies : List (Option RedisReply)) :
    deleteTemporaryUsermodesForChannel cursor cache replies = cache := by
  fun_induction deleteTemporaryUsermodesForChannel cursor cache replies with
  | case1 => rfl
  | case2 => rfl
  | case3 cursor cache reply replies first scanned rest helements cursor' cache' hzero =>
      exact delete_temporary_usermode_eq scanned cache
  | case4 cursor cache reply replies first scanned rest helements cursor' cache' hcursor ih =>
      rw [ih]
      exact delete_temporary_usermode_eq scanned cache
  | case5 => rfl

/-- So the deletion of a channel is the same without it. -/
theorem delete_channel_eq (env : Environment) (replies : List (Option RedisReply))
    (store : ChannelStore) (channelId : BitVec 32) :
    deleteChannelByIdScanned env replies store channelId =
      deleteChannelById env store channelId := by
  unfold deleteChannelByIdScanned deleteChannelById
  rw [delete_temporary_eq]

/-- After the deletion of a channel no temporary usermode of it has a record exactly if none had
one before. The records of positive ids are left alone. -/
theorem temporary_deleted_iff (env : Environment) (replies : List (Option RedisReply))
    (store : ChannelStore) (channelId : BitVec 32) :
    let after := deleteChannelByIdScanned env replies store channelId
    (NoTemporary store.usermodes.channels channelId after.usermodes ↔
        NoTemporary store.usermodes.channels channelId store.usermodes) ∧
      ∀ id : BitVec 32, 0 < id.toInt → after.usermodes.hashOf id = store.usermodes.hashOf id := by
  intro after
  have hrecords : after.usermodes.hashOf = store.usermodes.hashOf := by
    simp only [after, delete_channel_eq]
    rfl
  refine ⟨?_, fun id _ => congrFun hrecords id⟩
  unfold NoTemporary
  rw [hrecords]

/-- A batch of a scan as redis sends it: the cursor, and fields and values in turn. -/
def hscanReply (cursor : Bytes) (batch : List (Bytes × Bytes)) : RedisReply :=
  .array [.string cursor, .array (batch.flatMap fun entry => [.string entry.1, .string entry.2])]

/-- The record of a temporary usermode stays in the cache. -/
theorem temporary_usermode_left :
    ¬ ∀ (env : Environment) (replies : List (Option RedisReply)) (store : ChannelStore)
      (channelId : BitVec 32),
      NoTemporary store.usermodes.channels channelId
          (deleteChannelByIdScanned env replies store channelId).usermodes ∧
        ∀ id : BitVec 32, 0 < id.toInt →
          (deleteChannelByIdScanned env replies store channelId).usermodes.hashOf id =
            store.usermodes.hashOf id := by
  intro h
  let record := { UsermodeRecord.empty with usermodeid := -1, chanmask := ascii "#a" }
  let store :=
    { withUsers (fun _ => none) (fun _ => none) with
      usermodes := writeUsermodes .empty [(record, 1)] }
  have hgone := (h ⟨ascii "server", 0, .empty, id, [], [], []⟩
    [some (hscanReply (ascii "0") [(ascii "-1", ascii "#a")])] store 1).1 (-1) (by decide)
      (by decide)
  exact absurd (congrFun hgone (ascii "id")) (by decide)

end OpenSpy.Peerchat
