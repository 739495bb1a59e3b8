import RealmLogon.Bytes.LittleEndian

/-! The digest SHA-1: padding to blocks of 64 bytes, a schedule of 80 words for each block, and a fold
of the blocks over five words. -/

namespace RealmLogon.Sha1

structure State where
  a : UInt32
  b : UInt32
  c : UInt32
  d : UInt32
  e : UInt32

def State.start : State := ⟨0x67452301, 0xEFCDAB89, 0x98BADCFE, 0x10325476, 0xC3D2E1F0⟩

def State.add (s t : State) : State := ⟨s.a + t.a, s.b + t.b, s.c + t.c, s.d + t.d, s.e + t.e⟩

def rotate (x : UInt32) (n : UInt32) : UInt32 := (x <<< n) ||| (x >>> (32 - n))

/-- A message is followed by the byte 80, zeros, and its length in bits as eight bytes, high byte
first, so that the whole is a multiple of 64 bytes. -/
def pad (m : Bytes) : Bytes :=
  m ++ 0x80 :: List.replicate ((119 - m.length % 64) % 64) 0 ++
    (LittleEndian.digits 8 (8 * m.length)).reverse

/-- Words of four bytes, high byte first. -/
def words : Bytes → List UInt32
  | a :: b :: c :: d :: r =>
    (a.toUInt32 <<< 24 ||| b.toUInt32 <<< 16 ||| c.toUInt32 <<< 8 ||| d.toUInt32) :: words r
  | _ => []

/-- The schedule extended by `n` words, each from the words 3, 8, 14 and 16 places back. -/
def extend : Nat → Array UInt32 → Array UInt32
  | 0, w => w
  | n + 1, w =>
    let back (k : Nat) : UInt32 := w.getD (w.size - k) 0
    extend n (w.push (rotate (back 3 ^^^ back 8 ^^^ back 14 ^^^ back 16) 1))

/-- One round: the word of the schedule goes in with the function and constant of its quarter. -/
def round (s : State) (t : Nat) (w : UInt32) : State :=
  let (f, k) : UInt32 × UInt32 :=
    if t < 20 then ((s.b &&& s.c) ||| (~~~s.b &&& s.d), 0x5A827999)
    else if t < 40 then (s.b ^^^ s.c ^^^ s.d, 0x6ED9EBA1)
    else if t < 60 then ((s.b &&& s.c) ||| (s.b &&& s.d) ||| (s.c &&& s.d), 0x8F1BBCDC)
    else (s.b ^^^ s.c ^^^ s.d, 0xCA62C1D6)
  ⟨rotate s.a 5 + f + s.e + k + w, s.a, rotate s.b 30, s.c, s.d⟩

def compress (s : State) (block : Bytes) : State :=
  let schedule := (extend 64 (words block).toArray).toList
  s.add (schedule.zipIdx.foldl (fun acc (w, t) => round acc t w) s)

/-- The blocks of 64 bytes, from the front; what is left over is dropped. -/
def blocks (m : Bytes) : List Bytes :=
  if _h : m.length < 64 then [] else m.take 64 :: blocks (m.drop 64)
termination_by m.length
decreasing_by simp; omega

def State.digest (s : State) : Octets 20 :=
  let be (w : UInt32) : Octets 4 := ⟨(LittleEndian.word32 w).reverse, by simp⟩
  (be s.a).append <| (be s.b).append <| (be s.c).append <| (be s.d).append (be s.e)

def hash (m : Bytes) : Octets 20 := ((blocks (pad m)).foldl compress State.start).digest

end RealmLogon.Sha1

namespace RealmLogon

abbrev Digest := Octets 20

end RealmLogon
