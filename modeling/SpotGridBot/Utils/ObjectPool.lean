import SpotGridBot.Lib.FreeList
import SpotGridBot.Lib.Runs
import Mathlib.Algebra.Group.Nat.Even

namespace SpotGridBot.Utils
open Runs FreeList

/-- A buffer of the slab, or one that `malloc` returned; the chunk behind the last one is no buffer,
but links lead to it. -/
inductive Buffer where
  | chunk (ix : ℕ)
  | heap (ix : ℕ)
deriving DecidableEq, Repr

/-- A buffer has room for the link that is kept in it while it is free. -/
structure BufferPool where
  memory : Buffer → Buffer
  freeList : Buffer
  buffersInUse : ℕ := 0
  capacity : ℕ
  -- What the callers hold, the buffers that `malloc` returned, and whether the counter went below
  -- zero. The source keeps none of these.
  outstanding : List Buffer := []
  mallocs : ℕ := 0
  wrapped : Bool := false

namespace BufferPool

def initBuffers : ℕ → (Buffer → Buffer) → Buffer → Buffer
  | 0, memory => memory
  | n + 1, memory => Function.update (initBuffers n memory) (.chunk n) (.chunk (n + 1))

/-- The constructor; the memory it gets holds anything. -/
def new (bufferCount : ℕ) (memory : Buffer → Buffer) : BufferPool where
  memory := initBuffers bufferCount memory
  freeList := .chunk 0
  capacity := bufferCount

variable (pool : BufferPool)

def isExhausted : Bool := pool.buffersInUse ≥ pool.capacity

def getRawBuffer : Buffer × BufferPool :=
  if pool.buffersInUse ≥ pool.capacity then
    (.heap pool.mallocs, { pool with
      outstanding := .heap pool.mallocs :: pool.outstanding
      mallocs := pool.mallocs + 1 })
  else
    (pool.freeList, { pool with
      freeList := pool.memory pool.freeList
      buffersInUse := (pool.buffersInUse + 1) % 2 ^ 64
      outstanding := pool.freeList :: pool.outstanding })

def releaseBuffer (buffer : Buffer) : BufferPool :=
  { pool with
    memory := Function.update pool.memory buffer pool.freeList
    freeList := buffer
    buffersInUse := (pool.buffersInUse + (2 ^ 64 - 1)) % 2 ^ 64
    outstanding := pool.outstanding.erase buffer
    wrapped := pool.wrapped || pool.buffersInUse == 0 }

inductive Event where
  | getRawBuffer
  | releaseBuffer (buffer : Buffer)
  -- The holder of a buffer writes to it.
  | write (buffer content : Buffer)

def step (pool : BufferPool) : Event → BufferPool
  | .getRawBuffer => pool.getRawBuffer.2
  | .releaseBuffer buffer => pool.releaseBuffer buffer
  | .write buffer content => { pool with memory := Function.update pool.memory buffer content }

def Held (pool : BufferPool) : Event → Prop
  | .getRawBuffer => True
  | .releaseBuffer buffer => buffer ∈ pool.outstanding
  | .write buffer _ => buffer ∈ pool.outstanding

instance (pool : BufferPool) (event : Event) : Decidable (pool.Held event) := by
  cases event <;> unfold Held <;> infer_instance

structure Accounted (pool : BufferPool) : Prop where
  once : pool.outstanding.Nodup
  counted : pool.wrapped = false
  restored : pool.outstanding = [] → pool.isExhausted = false ∧
    (run step pool (List.replicate pool.capacity .getRawBuffer)).mallocs = pool.mallocs ∧
    (run step pool (List.replicate pool.capacity .getRawBuffer)).outstanding.Nodup

def MorePooled (pool : BufferPool) : Event → Prop
  | .releaseBuffer _ => pool.mallocs < pool.outstanding.length
  | _ => True

instance (pool : BufferPool) (event : Event) : Decidable (pool.MorePooled event) := by
  cases event <;> unfold MorePooled <;> infer_instance

structure Sound (pool : BufferPool) (free : List Buffer) : Prop where
  linked : Linked pool.memory pool.freeList free
  apart : (pool.outstanding ++ free).Nodup
  known : ∀ ix, .heap ix ∈ pool.outstanding ++ free → ix < pool.mallocs
  counter : pool.buffersInUse + pool.mallocs = pool.outstanding.length
  room : pool.buffersInUse + free.length = pool.capacity
  positive : 0 < pool.capacity
  small : pool.capacity < 2 ^ 64
  counted : pool.wrapped = false

theorem initBuffers_chunk {n ix : ℕ} (inside : ix < n) (memory : Buffer → Buffer) :
    initBuffers n memory (.chunk ix) = .chunk (ix + 1) := by
  induction n with
  | zero => exact absurd inside (Nat.not_lt_zero ix)
  | succ n ih =>
      unfold initBuffers
      by_cases last : ix = n
      · rw [last, Function.update_self]
      · rw [Function.update_of_ne (by simpa using last)]
        exact ih (by omega)

theorem sound_new {bufferCount : ℕ} (positive : 0 < bufferCount) (small : bufferCount < 2 ^ 64)
    (memory : Buffer → Buffer) :
    (new bufferCount memory).Sound ((List.range' 0 bufferCount).map .chunk) where
  linked := linked_places Buffer.chunk bufferCount fun ix _ below =>
    initBuffers_chunk (by omega) memory
  apart := by
    have places : (List.range' 0 bufferCount).Nodup := List.nodup_range'
    exact places.map fun _ _ same => Buffer.chunk.inj same
  known := by simp [new]
  counter := rfl
  room := by simp [new]
  positive := positive
  small := small
  counted := rfl

namespace Sound
variable {pool : BufferPool} {free : List Buffer} (sound : pool.Sound free)
include sound

theorem getRawBuffer_exhausted (exhausted : pool.buffersInUse ≥ pool.capacity) :
    pool.getRawBuffer.2.Sound free := by
  have new : Buffer.heap pool.mallocs ∉ pool.outstanding ++ free := fun member =>
    absurd (sound.known _ member) (lt_irrefl _)
  unfold BufferPool.getRawBuffer
  rw [if_pos exhausted]
  refine { sound with apart := ?_, known := ?_, counter := ?_ }
  · rw [List.cons_append]
    exact List.nodup_cons.mpr ⟨new, sound.apart⟩
  · intro ix member
    rw [List.cons_append] at member
    dsimp only
    rcases List.mem_cons.mp member with here | old
    · rw [Buffer.heap.inj here]
      exact Nat.lt_succ_self _
    · exact Nat.lt_succ_of_lt (sound.known ix old)
  · have counter := sound.counter
    dsimp only [List.length_cons]
    omega

theorem getRawBuffer_pooled (left : pool.buffersInUse < pool.capacity) : ∃ buffer free',
    free = buffer :: free' ∧ pool.getRawBuffer.2.Sound free' ∧
      pool.getRawBuffer.2.mallocs = pool.mallocs ∧
      pool.getRawBuffer.2.capacity = pool.capacity := by
  have room := sound.room
  have small := sound.small
  have counter := sound.counter
  cases free with
  | nil =>
      rw [List.length_nil] at room
      omega
  | cons buffer free' =>
      obtain ⟨top, rest⟩ := sound.linked
      have moved : (pool.outstanding ++ buffer :: free').Perm
          (buffer :: pool.outstanding ++ free') := List.perm_middle
      rw [List.length_cons] at room
      unfold BufferPool.getRawBuffer
      rw [if_neg (Nat.not_le.mpr left), top]
      have next : (pool.buffersInUse + 1) % 2 ^ 64 = pool.buffersInUse + 1 :=
        Nat.mod_eq_of_lt (by omega)
      refine ⟨buffer, free', rfl, { sound with
        linked := rest, apart := ?_, known := ?_, counter := ?_, room := ?_ }, rfl, rfl⟩
      · exact moved.nodup_iff.mp sound.apart
      · exact fun ix member => sound.known ix (moved.mem_iff.mpr member)
      · dsimp only [List.length_cons]
        omega
      · dsimp only
        omega

theorem releaseBuffer {buffer : Buffer} (held : buffer ∈ pool.outstanding)
    (pooled : pool.mallocs < pool.outstanding.length) :
    (pool.releaseBuffer buffer).Sound (buffer :: free) := by
  have counter := sound.counter
  have room := sound.room
  have small := sound.small
  have moved : (pool.outstanding ++ free).Perm
      (pool.outstanding.erase buffer ++ buffer :: free) :=
    ((List.perm_cons_erase held).append_right free).trans List.perm_middle.symm
  have apart : buffer ∉ free := fun member =>
    (List.disjoint_of_nodup_append sound.apart) held member
  have next : (pool.buffersInUse + (2 ^ 64 - 1)) % 2 ^ 64 = pool.buffersInUse - 1 := by
    omega
  have fewer := List.length_erase_of_mem held
  exact
    { linked := sound.linked.push apart
      apart := moved.nodup_iff.mp sound.apart
      known := fun ix member => sound.known ix (moved.mem_iff.mpr member)
      counter := by
        dsimp only [BufferPool.releaseBuffer]
        omega
      room := by
        dsimp only [BufferPool.releaseBuffer, List.length_cons]
        omega
      positive := sound.positive
      small := small
      counted := by
        have used : (pool.buffersInUse == 0) = false := beq_eq_false_iff_ne.mpr (by omega)
        dsimp only [BufferPool.releaseBuffer]
        rw [sound.counted, used]
        rfl }

theorem write {buffer : Buffer} (held : buffer ∈ pool.outstanding) (content : Buffer) :
    Sound { pool with memory := Function.update pool.memory buffer content } free :=
  { sound with
    linked := sound.linked.write (fun member =>
      (List.disjoint_of_nodup_append sound.apart) held member) content }

theorem step {event : Event} (held : pool.Held event) (pooled : pool.MorePooled event) :
    ∃ free', (pool.step event).Sound free' := by
  cases event with
  | getRawBuffer =>
      rcases Nat.lt_or_ge pool.buffersInUse pool.capacity with left | exhausted
      · obtain ⟨buffer, free', -, next, -⟩ := sound.getRawBuffer_pooled left
        exact ⟨free', next⟩
      · exact ⟨free, sound.getRawBuffer_exhausted exhausted⟩
  | releaseBuffer buffer => exact ⟨buffer :: free, sound.releaseBuffer held pooled⟩
  | write buffer content => exact ⟨free, sound.write held content⟩

theorem handOut {n : ℕ} (enough : n ≤ free.length) : ∃ free',
    (run BufferPool.step pool (List.replicate n .getRawBuffer)).Sound free' ∧
      (run BufferPool.step pool (List.replicate n .getRawBuffer)).mallocs = pool.mallocs := by
  induction n generalizing pool free with
  | zero => exact ⟨free, sound, rfl⟩
  | succ n ih =>
      have room := sound.room
      obtain ⟨buffer, rest, rfl, next, same, -⟩ := sound.getRawBuffer_pooled (by omega)
      rw [List.length_cons] at enough
      obtain ⟨free', last, same'⟩ := ih next (by omega)
      exact ⟨free', last, same'.trans same⟩

theorem accounted : pool.Accounted where
  once := (List.nodup_append.mp sound.apart).1
  counted := sound.counted
  restored := by
    intro released
    have counter := sound.counter
    have room := sound.room
    have positive := sound.positive
    rw [released, List.length_nil] at counter
    obtain ⟨free', last, same⟩ := sound.handOut (show pool.capacity ≤ free.length by omega)
    refine ⟨?_, same, (List.nodup_append.mp last.apart).1⟩
    unfold isExhausted
    simp only [ge_iff_le, decide_eq_false_iff_not, not_le]
    omega

end Sound

/-- In a run of any length the pool stays accounted for exactly as long as every release finds more
buffers held than ever came from `malloc`. -/
theorem accounted_iff_morePooled {bufferCount : ℕ} (positive : 0 < bufferCount)
    (small : bufferCount < 2 ^ 64) (memory : Buffer → Buffer) (events : List Event)
    (held : Along step Held (new bufferCount memory) events) :
    Always step Accounted (new bufferCount memory) events ↔
      Along step MorePooled (new bufferCount memory) events := by
  have keep : ∀ pool event, Held pool event → (∃ free, pool.Sound free) →
      MorePooled pool event → ∃ free, (step pool event).Sound free :=
    fun pool event held ⟨free, sound⟩ pooled => sound.step held pooled
  refine always_iff_along keep (fun pool ⟨free, sound⟩ => sound.accounted) ?_
    ⟨_, sound_new positive small memory⟩ held
  rintro pool event - ⟨free, sound⟩ unguarded accounted
  cases event with
  | getRawBuffer => exact unguarded trivial
  | write => exact unguarded trivial
  | releaseBuffer buffer =>
      have counter := sound.counter
      have few : ¬ pool.mallocs < pool.outstanding.length := unguarded
      have zero : pool.buffersInUse = 0 := by omega
      have counted := accounted.counted
      simp [step, releaseBuffer, zero] at counted

theorem accounted_chunk_again :
    Always step Accounted (new 1 id)
      [.getRawBuffer, .getRawBuffer, .releaseBuffer (.chunk 0), .getRawBuffer] :=
  (accounted_iff_morePooled (by decide) (by decide) id _ (by decide)).mpr (by decide)

theorem counter_wraps :
    ¬ ∀ (bufferCount : ℕ), 0 < bufferCount → bufferCount < 2 ^ 64 → ∀ (memory : Buffer → Buffer)
      (events : List Event), Along step Held (new bufferCount memory) events →
        Always step Accounted (new bufferCount memory) events := by
  intro always
  have last := (always 1 (by decide) (by decide) id [.getRawBuffer, .getRawBuffer,
    .releaseBuffer (.chunk 0), .releaseBuffer (.heap 0)] (by decide)).last
  exact absurd last.counted (by decide)

end BufferPool

end SpotGridBot.Utils
