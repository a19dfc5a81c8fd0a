import RemoteCache.Bytes.Hex

/-!
# The BLAKE2b hash

The unkeyed hash with a digest of up to 64 bytes. The state is eight words. A message is absorbed in blocks
of sixteen words, each with the count of bytes absorbed so far; the last block is padded with zeros and
marked. One block is mixed in by twelve rounds over sixteen working words, each round taking the words of
the block in the order of one row of `schedule`.
-/

namespace RemoteCache.Blake2b

abbrev Words (n : Nat) := Vector UInt64 n

/-- The initial state, before the parameters are mixed in. -/
def initial : Words 8 := #v[
  0x6a09e667f3bcc908, 0xbb67ae8584caa73b, 0x3c6ef372fe94f82b, 0xa54ff53a5f1d36f1,
  0x510e527fade682d1, 0x9b05688c2b3e6c1f, 0x1f83d9abfb41bd6b, 0x5be0cd19137e2179]

/-- The order in which each of the ten distinct rounds takes the words of the block. -/
def schedule : List (Vector (Fin 16) 16) := [
  #v[0, 1, 2, 3, 4, 5, 6, 7, 8, 9, 10, 11, 12, 13, 14, 15],
  #v[14, 10, 4, 8, 9, 15, 13, 6, 1, 12, 0, 2, 11, 7, 5, 3],
  #v[11, 8, 12, 0, 5, 2, 15, 13, 10, 14, 3, 6, 7, 1, 9, 4],
  #v[7, 9, 3, 1, 13, 12, 11, 14, 2, 6, 5, 10, 4, 0, 15, 8],
  #v[9, 0, 5, 7, 2, 4, 10, 15, 14, 1, 11, 12, 6, 8, 3, 13],
  #v[2, 12, 6, 10, 0, 11, 8, 3, 4, 13, 7, 5, 15, 14, 1, 9],
  #v[12, 5, 1, 15, 14, 13, 4, 10, 0, 7, 6, 3, 9, 2, 8, 11],
  #v[13, 11, 7, 14, 12, 1, 3, 9, 5, 0, 15, 4, 8, 6, 2, 10],
  #v[6, 15, 14, 9, 11, 3, 0, 8, 12, 2, 13, 7, 1, 4, 10, 5],
  #v[10, 2, 8, 4, 7, 6, 1, 5, 15, 11, 9, 14, 3, 12, 13, 0]]

/-- The twelve rounds: the ten distinct ones, then the first two again. -/
def rounds : List (Vector (Fin 16) 16) := schedule ++ schedule.take 2

/-- The quarter steps of a round: first down the columns, then along the diagonals. -/
def quarters : List (Fin 16 × Fin 16 × Fin 16 × Fin 16) := [
  (0, 4, 8, 12), (1, 5, 9, 13), (2, 6, 10, 14), (3, 7, 11, 15),
  (0, 5, 10, 15), (1, 6, 11, 12), (2, 7, 8, 13), (3, 4, 9, 14)]

def rotateRight (x : UInt64) (n : UInt64) : UInt64 := (x >>> n) ||| (x <<< (64 - n))

/-- One quarter step on the words `a b c d`, with two words of the block. -/
def mix (v : Words 16) (q : Fin 16 × Fin 16 × Fin 16 × Fin 16) (x y : UInt64) : Words 16 :=
  let (a, b, c, d) := q
  let va := v[a] + v[b] + x
  let vd := rotateRight (v[d] ^^^ va) 32
  let vc := v[c] + vd
  let vb := rotateRight (v[b] ^^^ vc) 24
  let va := va + vb + y
  let vd := rotateRight (vd ^^^ va) 16
  let vc := vc + vd
  let vb := rotateRight (vb ^^^ vc) 63
  (((v.set a va).set b vb).set c vc).set d vd

/-- The words of the block that the eight quarter steps of a round take, two by two. -/
def operands (block : Words 16) (order : Vector (Fin 16) 16) : List (UInt64 × UInt64) :=
  (List.finRange 8).map fun i =>
    (block[order[2 * i.val]], block[order[2 * i.val + 1]])

def applyRound (block v : Words 16) (order : Vector (Fin 16) 16) : Words 16 :=
  (quarters.zip (operands block order)).foldl (fun v (q, x, y) => mix v q x y) v

/-- Mixes one block into the state. `count` is the number of bytes absorbed with this block. -/
def compress (h : Words 8) (block : Words 16) (count : Nat) (last : Bool) : Words 8 :=
  let v : Words 16 := (h ++ initial).cast rfl
  let v := v.set 12 (v[12] ^^^ UInt64.ofNat count)
  let v := v.set 13 (v[13] ^^^ UInt64.ofNat (count >>> 64))
  let v := if last then v.set 14 (~~~ v[14]) else v
  let v := rounds.foldl (applyRound block) v
  Vector.ofFn fun i : Fin 8 => h[i] ^^^ v[i.val] ^^^ v[i.val + 8]

/-- The value of bytes, the lowest first. -/
def littleEndian (bytes : Bytes) : UInt64 :=
  bytes.foldr (fun b acc => acc <<< 8 ||| b.toUInt64) 0

/-- The sixteen words of up to 128 bytes, padded with zeros. -/
def blockOf (bytes : Bytes) : Words 16 :=
  Vector.ofFn fun i : Fin 16 => littleEndian ((bytes.drop (8 * i.val)).take 8)

/-- Absorbs what is left of the message, after `count` bytes. -/
def absorb (h : Words 8) (count : Nat) (bytes : Bytes) : Words 8 :=
  match e : bytes.drop 128 with
  | [] => compress h (blockOf bytes) (count + bytes.length) true
  | b :: rest => absorb (compress h (blockOf (bytes.take 128)) (count + 128) false) (count + 128) (b :: rest)
termination_by bytes.length
decreasing_by
  have := congrArg List.length e
  simp only [List.length_drop, List.length_cons] at this
  simp only [List.length_cons]
  omega

/-- The eight bytes of a word, the lowest first. -/
def wordBytes (w : UInt64) : Bytes :=
  (List.range 8).map fun i => (w >>> UInt64.ofNat (8 * i)).toUInt8

/-- The hash of `size` bytes. -/
def hash (size : Nat) (message : Bytes) : Bytes :=
  let h := initial.set 0 (initial[0] ^^^ 0x01010000 ^^^ UInt64.ofNat size)
  ((absorb h 0 message).toList.flatMap wordBytes).take size

theorem length_hash {size : Nat} (h : size ≤ 64) (message : Bytes) :
    (hash size message).length = size := by
  have : ∀ ws : List UInt64, (ws.flatMap wordBytes).length = 8 * ws.length := by
    intro ws
    induction ws with
    | nil => rfl
    | cons w ws ih => simp only [List.flatMap_cons, List.length_append, ih]; simp [wordBytes]; omega
  simp only [hash, List.length_take, this, Vector.length_toList]
  omega

end RemoteCache.Blake2b
