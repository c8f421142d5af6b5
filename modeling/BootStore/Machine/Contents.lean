import BootStore.Bytes

/-!
# File contents

What a file holds, as the chunks that were written and the gaps between them, so that a file may be
far larger than what is stored in it.
-/
namespace BootStore

inductive Chunk where
  | data (bytes : Bytes)
  /-- A stretch that was never written and reads as zeros. -/
  | gap (length : Nat)
  deriving DecidableEq, Repr

namespace Chunk

def length : Chunk → Nat
  | data b => b.length
  | gap n => n

def toBytes : Chunk → Bytes
  | data b => b
  | gap n => Bytes.zeros n

def take (n : Nat) : Chunk → Chunk
  | data b => data (b.take n)
  | gap m => gap (min n m)

def drop (n : Nat) : Chunk → Chunk
  | data b => data (b.drop n)
  | gap m => gap (m - n)

@[simp] theorem length_toBytes (c : Chunk) : c.toBytes.length = c.length := by
  cases c <;> simp [toBytes, length]

@[simp] theorem toBytes_take (n : Nat) (c : Chunk) : (c.take n).toBytes = c.toBytes.take n := by
  cases c <;> simp [take, toBytes, Bytes.zeros, List.take_replicate]

@[simp] theorem toBytes_drop (n : Nat) (c : Chunk) : (c.drop n).toBytes = c.toBytes.drop n := by
  cases c <;> simp [drop, toBytes, Bytes.zeros, List.drop_replicate]

end Chunk

structure Contents where
  chunks : List Chunk := []
  deriving DecidableEq, Repr

namespace Contents

def ofBytes (b : Bytes) : Contents := ⟨[.data b]⟩

def length (c : Contents) : Nat := c.chunks.foldr (fun k n => k.length + n) 0

def toBytes (c : Contents) : Bytes := c.chunks.flatMap Chunk.toBytes

def takeChunks : List Chunk → Nat → List Chunk
  | [], _ => []
  | c :: rest, n =>
    if n = 0 then []
    else if n < c.length then [c.take n]
    else c :: takeChunks rest (n - c.length)

def dropChunks : List Chunk → Nat → List Chunk
  | [], _ => []
  | c :: rest, n => if n < c.length then c.drop n :: rest else dropChunks rest (n - c.length)

def slice (c : Contents) (offset length : Nat) : Bytes :=
  toBytes ⟨takeChunks (dropChunks c.chunks offset) length⟩

def overwrite (c : Contents) (offset : Nat) (data : Bytes) : Contents :=
  ⟨takeChunks c.chunks offset ++ .gap (offset - c.length) :: .data data ::
    dropChunks c.chunks (offset + data.length)⟩

@[simp] theorem toBytes_ofBytes (b : Bytes) : (ofBytes b).toBytes = b := by
  simp [ofBytes, toBytes, Chunk.toBytes]

@[simp] theorem length_toBytes (c : Contents) : c.toBytes.length = c.length := by
  rw [toBytes, length]
  induction c.chunks with
  | nil => rfl
  | cons k rest ih => rw [List.flatMap_cons, List.length_append, Chunk.length_toBytes, ih]; rfl

theorem toBytes_takeChunks (l : List Chunk) (n : Nat) :
    (takeChunks l n).flatMap Chunk.toBytes = (l.flatMap Chunk.toBytes).take n := by
  induction l generalizing n with
  | nil => simp [takeChunks]
  | cons c rest ih =>
    simp only [takeChunks]
    split
    · next h => simp [h]
    split
    · next h =>
      have hn : n ≤ c.toBytes.length := by simp; omega
      simp [List.take_append_of_le_length hn]
    · next h =>
      have hn : c.toBytes.length ≤ n := by simp; omega
      rw [List.flatMap_cons, List.flatMap_cons, ih, List.take_append, List.take_of_length_le hn,
        Chunk.length_toBytes]

theorem toBytes_dropChunks (l : List Chunk) (n : Nat) :
    (dropChunks l n).flatMap Chunk.toBytes = (l.flatMap Chunk.toBytes).drop n := by
  induction l generalizing n with
  | nil => simp [dropChunks]
  | cons c rest ih =>
    simp only [dropChunks]
    split
    · next h =>
      have hn : n ≤ c.toBytes.length := by simp; omega
      simp [List.drop_append_of_le_length hn]
    · next h =>
      have hn : c.toBytes.length ≤ n := by simp; omega
      rw [ih, List.flatMap_cons, List.drop_append, List.drop_of_length_le hn, List.nil_append,
        Chunk.length_toBytes]

theorem slice_eq (c : Contents) (offset length : Nat) :
    c.slice offset length = Bytes.slice c.toBytes offset length := by
  simp only [slice, toBytes, Bytes.slice, toBytes_takeChunks, toBytes_dropChunks]

theorem toBytes_overwrite (c : Contents) (offset : Nat) (data : Bytes) :
    (c.overwrite offset data).toBytes = Bytes.overwrite c.toBytes offset data := by
  have hl : (c.chunks.flatMap Chunk.toBytes).length = c.length := c.length_toBytes
  simp [overwrite, toBytes, Bytes.overwrite, toBytes_takeChunks, toBytes_dropChunks,
    Chunk.toBytes, hl]

end Contents

end BootStore
