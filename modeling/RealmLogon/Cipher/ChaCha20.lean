import RealmLogon.Bytes.LittleEndian

/-! The stream cipher ChaCha20 with a nonce of 12 bytes and a block counter of 32 bits. Encrypting
and decrypting are the same exclusive or with the key stream. -/

namespace RealmLogon.ChaCha20

abbrev Words := Vector UInt32 16

def rotate (x : UInt32) (n : UInt32) : UInt32 := (x <<< n) ||| (x >>> (32 - n))

def quarter (s : Words) (a b c d : Fin 16) : Words :=
  let s := s.set a (s[a] + s[b]); let s := s.set d (rotate (s[d] ^^^ s[a]) 16)
  let s := s.set c (s[c] + s[d]); let s := s.set b (rotate (s[b] ^^^ s[c]) 12)
  let s := s.set a (s[a] + s[b]); let s := s.set d (rotate (s[d] ^^^ s[a]) 8)
  let s := s.set c (s[c] + s[d]); s.set b (rotate (s[b] ^^^ s[c]) 7)

/-- A round over the columns and one over the diagonals. -/
def doubleRound (s : Words) : Words :=
  let s := quarter s 0 4 8 12; let s := quarter s 1 5 9 13
  let s := quarter s 2 6 10 14; let s := quarter s 3 7 11 15
  let s := quarter s 0 5 10 15; let s := quarter s 1 6 11 12
  let s := quarter s 2 7 8 13; quarter s 3 4 9 14

def wordAt (b : Bytes) (i : Nat) : UInt32 := LittleEndian.toWord32 ((b.drop (4 * i)).take 4)

def initial (key : Octets 32) (nonce : Octets 12) (counter : UInt32) : Words :=
  .ofFn fun i =>
    if i.val = 0 then 0x61707865 else if i.val = 1 then 0x3320646E
    else if i.val = 2 then 0x79622D32 else if i.val = 3 then 0x6B206574
    else if i.val < 12 then wordAt key.toList (i.val - 4)
    else if i.val = 12 then counter
    else wordAt nonce.toList (i.val - 13)

/-- The 64 bytes of the key stream that belong to a counter. -/
def block (key : Octets 32) (nonce : Octets 12) (counter : UInt32) : Bytes :=
  let start := initial key nonce counter
  let mixed := Nat.repeat doubleRound 10 start
  (List.finRange 16).flatMap fun i => LittleEndian.word32 (mixed[i] + start[i])

@[simp] theorem length_block (key : Octets 32) (nonce : Octets 12) (counter : UInt32) :
    (block key nonce counter).length = 64 := by
  simp [block, List.length_flatMap, List.map_const']

/-- Exclusive or with the key stream from a counter on. -/
def crypt (key : Octets 32) (nonce : Octets 12) (counter : UInt32) (m : Bytes) : Bytes :=
  if _h : m = [] then []
  else List.zipWith (· ^^^ ·) (m.take 64) (block key nonce counter) ++
    crypt key nonce (counter + 1) (m.drop 64)
termination_by m.length
decreasing_by
  have := List.length_pos_iff.mpr _h
  simp only [List.length_drop]; omega

@[simp] theorem length_crypt (key : Octets 32) (nonce : Octets 12) (counter : UInt32) (m : Bytes) :
    (crypt key nonce counter m).length = m.length := by
  fun_induction crypt key nonce counter m with
  | case1 => rfl
  | case2 counter m h ih => simp [ih]; omega

end RealmLogon.ChaCha20
