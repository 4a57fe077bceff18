namespace PreviewCompiler.Blake3

abbrev Words := Vector UInt32 16

abbrev Chaining := Vector UInt32 8

def initial : Chaining :=
  #v[0x6A09E667,0xBB67AE85,0x3C6EF372,0xA54FF53A,0x510E527F,0x9B05688C,0x1F83D9AB,0x5BE0CD19]

def chunkStart : UInt32 := 1
def chunkEnd : UInt32 := 2
def parent : UInt32 := 4
def root : UInt32 := 8

def rotateRight (x : UInt32) (n : UInt32) : UInt32 := (x >>> n) ||| (x <<< (32 - n))

/-- Mix two words of a message into four words of a state. -/
def mix (v : Words) (a b c d : Fin 16) (x y : UInt32) : Words :=
  let v := v.set a (v[a] + v[b] + x)
  let v := v.set d (rotateRight (v[d] ^^^ v[a]) 16)
  let v := v.set c (v[c] + v[d])
  let v := v.set b (rotateRight (v[b] ^^^ v[c]) 12)
  let v := v.set a (v[a] + v[b] + y)
  let v := v.set d (rotateRight (v[d] ^^^ v[a]) 8)
  let v := v.set c (v[c] + v[d])
  v.set b (rotateRight (v[b] ^^^ v[c]) 7)

def mixAll (v m : Words) : Words :=
  let v := mix v 0 4 8 12 m[0] m[1]
  let v := mix v 1 5 9 13 m[2] m[3]
  let v := mix v 2 6 10 14 m[4] m[5]
  let v := mix v 3 7 11 15 m[6] m[7]
  let v := mix v 0 5 10 15 m[8] m[9]
  let v := mix v 1 6 11 12 m[10] m[11]
  let v := mix v 2 7 8 13 m[12] m[13]
  mix v 3 4 9 14 m[14] m[15]

def permute (m : Words) : Words :=
  #v[m[2],m[6],m[3],m[10],m[7],m[0],m[4],m[13],
     m[1],m[11],m[12],m[5],m[9],m[14],m[15],m[8]]

def rounds : (n : Nat) → (v m : Words) → Words
  | 0, v, _ => v
  | n + 1, v, m => rounds n (mixAll v m) (permute m)

/-- A block with what it is mixed with. -/
structure Input where
  chaining : Chaining
  block : Words
  counter : UInt64
  length : UInt32
  flags : UInt32

/-- The eight words that an input is turned into. -/
def Input.output (i : Input) : Chaining :=
  let h := i.chaining
  let v : Words :=
    #v[h[0],h[1],h[2],h[3],h[4],h[5],h[6],h[7],
       initial[0],initial[1],initial[2],initial[3],
       i.counter.toUInt32,(i.counter >>> 32).toUInt32,i.length,i.flags]
  let v := rounds 7 v i.block
  #v[v[0] ^^^ v[8],v[1] ^^^ v[9],v[2] ^^^ v[10],v[3] ^^^ v[11],
     v[4] ^^^ v[12],v[5] ^^^ v[13],v[6] ^^^ v[14],v[7] ^^^ v[15]]

def word (bytes : List UInt8) : UInt32 :=
  (bytes.take 4).foldr (fun b w => (w <<< 8) ||| b.toUInt32) 0

def wordsOf (bytes : List UInt8) : Words := Vector.ofFn fun i => word (bytes.drop (4 * i.val))

def pieces {α : Type} (n : Nat) (xs : List α) : List (List α) :=
  match xs with
  | [] => []
  | x :: xs => (x :: xs.take n) :: pieces n (xs.drop n)
termination_by xs.length

/-- The last input of a chunk, `h` being the words behind the blocks in front of it. -/
def chunkInput (counter : UInt64) (isFirst : Bool) (h : Chaining) : List (List UInt8) → Input
  | [] => ⟨h,wordsOf [],counter,0,chunkEnd ||| (if isFirst then chunkStart else 0)⟩
  | [block] =>
    ⟨h,wordsOf block,counter,block.length.toUInt32,
      chunkEnd ||| (if isFirst then chunkStart else 0)⟩
  | block :: blocks =>
    let input : Input :=
      ⟨h,wordsOf block,counter,block.length.toUInt32,if isFirst then chunkStart else 0⟩
    chunkInput counter false input.output blocks

def leaf (counter : Nat) (chunk : List UInt8) : Input :=
  chunkInput counter.toUInt64 true initial (pieces 63 chunk)

def join (left right : Input) : Input :=
  let l := left.output
  let r := right.output
  ⟨initial,
    #v[l[0],l[1],l[2],l[3],l[4],l[5],l[6],l[7],r[0],r[1],r[2],r[3],r[4],r[5],r[6],r[7]],
    0,64,parent⟩

/-- How many of `n` chunks are below the left node: the largest power of two that leaves one. -/
def leftSize (n : Nat) : Nat := Nat.pow 2 (Nat.log2 (n - 1))

theorem leftSize_pos (n : Nat) : 0 < leftSize n := Nat.pow_pos (by decide)

theorem leftSize_lt {n : Nat} (h : 2 ≤ n) : leftSize n < n := by
  have : leftSize n ≤ n - 1 := Nat.log2_self_le (by omega)
  omega

/-- The tree over some chunks, the first of which has the number `first`. -/
def tree (first : Nat) (chunks : List (List UInt8)) : Input :=
  if 2 ≤ chunks.length then
    let k := leftSize chunks.length
    join (tree first (chunks.take k)) (tree (first + k) (chunks.drop k))
  else leaf first (chunks.headD [])
termination_by chunks.length
decreasing_by
  · have := leftSize_lt (n := chunks.length) (by assumption)
    simp only [List.length_take]
    omega
  · have := leftSize_pos chunks.length
    simp only [List.length_drop]
    omega

def hexDigit (n : Nat) : Char := (Nat.toDigits 16 n).headD '0'

def hexWord (w : UInt32) : List Char :=
  (List.range 4).flatMap fun i =>
    let byte := w.toNat / Nat.pow 256 i % 256
    [hexDigit (byte / 16),hexDigit (byte % 16)]

/-- The digest of 256 bits of BLAKE3, in base sixteen.  Chunks of 1024 bytes are the leaves of a tree, the left
subtrees of which are complete; a node is turned into the eight words that its parent reads. -/
def hash (bytes : List UInt8) : String :=
  let top := tree 0 (pieces 1023 bytes)
  String.ofList (({ top with flags := top.flags ||| root }.output).toList.flatMap hexWord)

end PreviewCompiler.Blake3
