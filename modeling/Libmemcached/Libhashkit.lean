-- The hash functions of libhashkit, on a machine that puts the low byte of a
-- word first and whose `char` has a sign.
import Libmemcached.HostList
import Libmemcached.Lib.BlockHash

open Chunks Memory

namespace Libmemcached

/-! ## Characters -/

/-- `(uint32_t) *key`. -/
def charWord (c : UInt8) : UInt32 := c.toInt8.toInt32.toUInt32

/-- `(uint64_t) *key`. -/
def charLong (c : UInt8) : UInt64 := c.toInt8.toInt64.toUInt64

/-! ## one_at_a_time.c, fnv.c -/

def hashkit_one_at_a_time (key : Bytes) : UInt32 :=
  let value := key.foldl (fun value c =>
    let value := value + charWord c
    let value := value + value <<< 10
    value ^^^ value >>> 6) 0
  let value := value + value <<< 3
  let value := value ^^^ value >>> 11
  value + value <<< 15

def FNV_64_INIT : UInt64 := 0xcbf29ce484222325

def FNV_64_PRIME : UInt64 := 0x100000001b3

def FNV_32_INIT : UInt32 := 2166136261

def FNV_32_PRIME : UInt32 := 16777619

def hashkit_fnv1_64 (key : Bytes) : UInt32 :=
  (key.foldl (fun hash c => hash * FNV_64_PRIME ^^^ charLong c) FNV_64_INIT).toUInt32

def hashkit_fnv1a_64 (key : Bytes) : UInt32 :=
  key.foldl (fun hash c => (hash ^^^ charWord c) * FNV_64_PRIME.toUInt32) FNV_64_INIT.toUInt32

def hashkit_fnv1_32 (key : Bytes) : UInt32 :=
  key.foldl (fun hash c => hash * FNV_32_PRIME ^^^ charWord c) FNV_32_INIT

def hashkit_fnv1a_32 (key : Bytes) : UInt32 :=
  key.foldl (fun hash c => (hash ^^^ charWord c) * FNV_32_PRIME) FNV_32_INIT

/-! ## crc32.c -/

def crc32tab : List UInt32 :=
  [0x00000000, 0x77073096, 0xee0e612c, 0x990951ba, 0x076dc419, 0x706af48f, 0xe963a535, 0x9e6495a3,
   0x0edb8832, 0x79dcb8a4, 0xe0d5e91e, 0x97d2d988, 0x09b64c2b, 0x7eb17cbd, 0xe7b82d07, 0x90bf1d91,
   0x1db71064, 0x6ab020f2, 0xf3b97148, 0x84be41de, 0x1adad47d, 0x6ddde4eb, 0xf4d4b551, 0x83d385c7,
   0x136c9856, 0x646ba8c0, 0xfd62f97a, 0x8a65c9ec, 0x14015c4f, 0x63066cd9, 0xfa0f3d63, 0x8d080df5,
   0x3b6e20c8, 0x4c69105e, 0xd56041e4, 0xa2677172, 0x3c03e4d1, 0x4b04d447, 0xd20d85fd, 0xa50ab56b,
   0x35b5a8fa, 0x42b2986c, 0xdbbbc9d6, 0xacbcf940, 0x32d86ce3, 0x45df5c75, 0xdcd60dcf, 0xabd13d59,
   0x26d930ac, 0x51de003a, 0xc8d75180, 0xbfd06116, 0x21b4f4b5, 0x56b3c423, 0xcfba9599, 0xb8bda50f,
   0x2802b89e, 0x5f058808, 0xc60cd9b2, 0xb10be924, 0x2f6f7c87, 0x58684c11, 0xc1611dab, 0xb6662d3d,
   0x76dc4190, 0x01db7106, 0x98d220bc, 0xefd5102a, 0x71b18589, 0x06b6b51f, 0x9fbfe4a5, 0xe8b8d433,
   0x7807c9a2, 0x0f00f934, 0x9609a88e, 0xe10e9818, 0x7f6a0dbb, 0x086d3d2d, 0x91646c97, 0xe6635c01,
   0x6b6b51f4, 0x1c6c6162, 0x856530d8, 0xf262004e, 0x6c0695ed, 0x1b01a57b, 0x8208f4c1, 0xf50fc457,
   0x65b0d9c6, 0x12b7e950, 0x8bbeb8ea, 0xfcb9887c, 0x62dd1ddf, 0x15da2d49, 0x8cd37cf3, 0xfbd44c65,
   0x4db26158, 0x3ab551ce, 0xa3bc0074, 0xd4bb30e2, 0x4adfa541, 0x3dd895d7, 0xa4d1c46d, 0xd3d6f4fb,
   0x4369e96a, 0x346ed9fc, 0xad678846, 0xda60b8d0, 0x44042d73, 0x33031de5, 0xaa0a4c5f, 0xdd0d7cc9,
   0x5005713c, 0x270241aa, 0xbe0b1010, 0xc90c2086, 0x5768b525, 0x206f85b3, 0xb966d409, 0xce61e49f,
   0x5edef90e, 0x29d9c998, 0xb0d09822, 0xc7d7a8b4, 0x59b33d17, 0x2eb40d81, 0xb7bd5c3b, 0xc0ba6cad,
   0xedb88320, 0x9abfb3b6, 0x03b6e20c, 0x74b1d29a, 0xead54739, 0x9dd277af, 0x04db2615, 0x73dc1683,
   0xe3630b12, 0x94643b84, 0x0d6d6a3e, 0x7a6a5aa8, 0xe40ecf0b, 0x9309ff9d, 0x0a00ae27, 0x7d079eb1,
   0xf00f9344, 0x8708a3d2, 0x1e01f268, 0x6906c2fe, 0xf762575d, 0x806567cb, 0x196c3671, 0x6e6b06e7,
   0xfed41b76, 0x89d32be0, 0x10da7a5a, 0x67dd4acc, 0xf9b9df6f, 0x8ebeeff9, 0x17b7be43, 0x60b08ed5,
   0xd6d6a3e8, 0xa1d1937e, 0x38d8c2c4, 0x4fdff252, 0xd1bb67f1, 0xa6bc5767, 0x3fb506dd, 0x48b2364b,
   0xd80d2bda, 0xaf0a1b4c, 0x36034af6, 0x41047a60, 0xdf60efc3, 0xa867df55, 0x316e8eef, 0x4669be79,
   0xcb61b38c, 0xbc66831a, 0x256fd2a0, 0x5268e236, 0xcc0c7795, 0xbb0b4703, 0x220216b9, 0x5505262f,
   0xc5ba3bbe, 0xb2bd0b28, 0x2bb45a92, 0x5cb36a04, 0xc2d7ffa7, 0xb5d0cf31, 0x2cd99e8b, 0x5bdeae1d,
   0x9b64c2b0, 0xec63f226, 0x756aa39c, 0x026d930a, 0x9c0906a9, 0xeb0e363f, 0x72076785, 0x05005713,
   0x95bf4a82, 0xe2b87a14, 0x7bb12bae, 0x0cb61b38, 0x92d28e9b, 0xe5d5be0d, 0x7cdcefb7, 0x0bdbdf21,
   0x86d3d2d4, 0xf1d4e242, 0x68ddb3f8, 0x1fda836e, 0x81be16cd, 0xf6b9265b, 0x6fb077e1, 0x18b74777,
   0x88085ae6, 0xff0f6a70, 0x66063bca, 0x11010b5c, 0x8f659eff, 0xf862ae69, 0x616bffd3, 0x166ccf45,
   0xa00ae278, 0xd70dd2ee, 0x4e048354, 0x3903b3c2, 0xa7672661, 0xd06016f7, 0x4969474d, 0x3e6e77db,
   0xaed16a4a, 0xd9d65adc, 0x40df0b66, 0x37d83bf0, 0xa9bcae53, 0xdebb9ec5, 0x47b2cf7f, 0x30b5ffe9,
   0xbdbdf21c, 0xcabac28a, 0x53b39330, 0x24b4a3a6, 0xbad03605, 0xcdd70693, 0x54de5729, 0x23d967bf,
   0xb3667a2e, 0xc4614ab8, 0x5d681b02, 0x2a6f2b94, 0xb40bbe37, 0xc30c8ea1, 0x5a05df1b, 0x2d02ef8d]

def crc32Step (crc : UInt32) (c : UInt8) : UInt32 :=
  crc >>> 8 ^^^ crc32tab.getD ((crc.toUInt64 ^^^ charLong c) &&& 0xff).toNat 0

def hashkit_crc32 (key : Bytes) : UInt32 :=
  (~~~ (key.foldl crc32Step 0xffffffff)) >>> 16 &&& 0x7fff

/-! ## hsieh.c, murmur.c -/

/-- `get16bits`. -/
def get16bits (low high : UInt8) : UInt32 := high.toUInt32 <<< 8 + low.toUInt32

/-- The main loop and the end cases. -/
def hsiehLoop (hash : UInt32) : Bytes → UInt32
  | a :: b :: c :: d :: key =>
    let hash := hash + get16bits a b
    let tmp := get16bits c d <<< 11 ^^^ hash
    let hash := hash <<< 16 ^^^ tmp
    hsiehLoop (hash + hash >>> 11) key
  | [a, b, c] =>
    let hash := hash + get16bits a b
    let hash := hash ^^^ hash <<< 16
    let hash := hash ^^^ charWord c <<< 18
    hash + hash >>> 11
  | [a, b] =>
    let hash := hash + get16bits a b
    let hash := hash ^^^ hash <<< 11
    hash + hash >>> 17
  | [a] =>
    let hash := hash + charWord a
    let hash := hash ^^^ hash <<< 10
    hash + hash >>> 1
  | [] => hash

def hashkit_hsieh (key : Bytes) : UInt32 :=
  if key.length ≤ 0 then 0
  else
    let hash := hsiehLoop 0 key
    let hash := hash ^^^ hash <<< 3
    let hash := hash + hash >>> 5
    let hash := hash ^^^ hash <<< 4
    let hash := hash + hash >>> 17
    let hash := hash ^^^ hash <<< 25
    hash + hash >>> 6

/-- `*(unsigned int *) k`. -/
def load32 (k : Nat → UInt8) : UInt32 :=
  UInt32.ofNat ((k 0).toNat + 256 * (k 1).toNat + 65536 * (k 2).toNat + 16777216 * (k 3).toNat)

/-- `*(const uint16_t *) k`. -/
def load16 (k : Nat → UInt8) : UInt32 := UInt32.ofNat ((k 0).toNat + 256 * (k 1).toNat)

def murmurM : UInt32 := 0x5bd1e995

/-- Four bytes at a time, and then the last few. -/
def murmurLoop (h : UInt32) : Bytes → UInt32
  | a :: b :: c :: d :: data =>
    let k := load32 fun i => [a, b, c, d].getD i 0
    let k := k * murmurM
    let k := k ^^^ k >>> 24
    let k := k * murmurM
    murmurLoop (h * murmurM ^^^ k) data
  | [a, b, c] => (h ^^^ c.toUInt32 <<< 16 ^^^ b.toUInt32 <<< 8 ^^^ a.toUInt32) * murmurM
  | [a, b] => (h ^^^ b.toUInt32 <<< 8 ^^^ a.toUInt32) * murmurM
  | [a] => (h ^^^ a.toUInt32) * murmurM
  | [] => h

def hashkit_murmur (key : Bytes) : UInt32 :=
  let length := UInt32.ofNat key.length
  let seed := 0xdeadbeef * length
  let h := murmurLoop (seed ^^^ length) key
  let h := h ^^^ h >>> 13
  let h := h * murmurM
  h ^^^ h >>> 15

/-! ## jenkins.c -/

/-- `a`, `b` and `c`. -/
structure JenkinsSt where
  a : UInt32
  b : UInt32
  c : UInt32

namespace JenkinsSt

def rot (x k : UInt32) : UInt32 := x <<< k ||| x >>> (32 - k)

def mix (s : JenkinsSt) : JenkinsSt :=
  let ⟨a, b, c⟩ := s
  let a := a - c; let a := a ^^^ rot c 4; let c := c + b
  let b := b - a; let b := b ^^^ rot a 6; let a := a + c
  let c := c - b; let c := c ^^^ rot b 8; let b := b + a
  let a := a - c; let a := a ^^^ rot c 16; let c := c + b
  let b := b - a; let b := b ^^^ rot a 19; let a := a + c
  let c := c - b; let c := c ^^^ rot b 4; let b := b + a
  ⟨a, b, c⟩

/-- `c` after `final`. -/
def final (s : JenkinsSt) : UInt32 :=
  let ⟨a, b, c⟩ := s
  let c := c ^^^ b; let c := c - rot b 14
  let a := a ^^^ c; let a := a - rot c 11
  let b := b ^^^ a; let b := b - rot a 25
  let c := c ^^^ b; let c := c - rot b 16
  let a := a ^^^ c; let a := a - rot c 4
  let b := b ^^^ a; let b := b - rot a 14
  let c := c ^^^ b; c - rot b 24

/-- A key whose address is a multiple of four. -/
def words (k : Nat → UInt8) (length : Nat) (s : JenkinsSt) : JenkinsSt :=
  let k0 := load32 k
  let k1 := load32 fun i => k (i + 4)
  let k2 := load32 fun i => k (i + 8)
  match length with
  | 11 => ⟨s.a + k0, s.b + k1, s.c + (k2 &&& 0xffffff)⟩
  | 10 => ⟨s.a + k0, s.b + k1, s.c + (k2 &&& 0xffff)⟩
  | 9 => ⟨s.a + k0, s.b + k1, s.c + (k2 &&& 0xff)⟩
  | 8 => ⟨s.a + k0, s.b + k1, s.c⟩
  | 7 => ⟨s.a + k0, s.b + (k1 &&& 0xffffff), s.c⟩
  | 6 => ⟨s.a + k0, s.b + (k1 &&& 0xffff), s.c⟩
  | 5 => ⟨s.a + k0, s.b + (k1 &&& 0xff), s.c⟩
  | 4 => ⟨s.a + k0, s.b, s.c⟩
  | 3 => ⟨s.a + (k0 &&& 0xffffff), s.b, s.c⟩
  | 2 => ⟨s.a + (k0 &&& 0xffff), s.b, s.c⟩
  | 1 => ⟨s.a + (k0 &&& 0xff), s.b, s.c⟩
  | _ => ⟨s.a + k0, s.b + k1, s.c + k2⟩

/-- A key whose address is another even number. -/
def halves (k : Nat → UInt8) (length : Nat) (s : JenkinsSt) : JenkinsSt :=
  let half i := load16 fun j => k (2 * i + j)
  let k8 i := (k i).toUInt32
  match length with
  | 11 => ⟨s.a + (half 0 + half 1 <<< 16), s.b + (half 2 + half 3 <<< 16),
      s.c + k8 10 <<< 16 + half 4⟩
  | 10 => ⟨s.a + (half 0 + half 1 <<< 16), s.b + (half 2 + half 3 <<< 16), s.c + half 4⟩
  | 9 => ⟨s.a + (half 0 + half 1 <<< 16), s.b + (half 2 + half 3 <<< 16), s.c + k8 8⟩
  | 8 => ⟨s.a + (half 0 + half 1 <<< 16), s.b + (half 2 + half 3 <<< 16), s.c⟩
  | 7 => ⟨s.a + (half 0 + half 1 <<< 16), s.b + k8 6 <<< 16 + half 2, s.c⟩
  | 6 => ⟨s.a + (half 0 + half 1 <<< 16), s.b + half 2, s.c⟩
  | 5 => ⟨s.a + (half 0 + half 1 <<< 16), s.b + k8 4, s.c⟩
  | 4 => ⟨s.a + (half 0 + half 1 <<< 16), s.b, s.c⟩
  | 3 => ⟨s.a + k8 2 <<< 16 + half 0, s.b, s.c⟩
  | 2 => ⟨s.a + half 0, s.b, s.c⟩
  | 1 => ⟨s.a + k8 0, s.b, s.c⟩
  | _ => ⟨s.a + (half 0 + half 1 <<< 16), s.b + (half 2 + half 3 <<< 16),
      s.c + (half 4 + half 5 <<< 16)⟩

/-- Any other key, one byte at a time. The cases fall through. -/
def bytes (k : Nat → UInt8) (length : Nat) (s : JenkinsSt) : JenkinsSt :=
  let byte i (shift : UInt32) := if i < length then (k i).toUInt32 <<< shift else 0
  ⟨s.a + byte 3 24 + byte 2 16 + byte 1 8 + byte 0 0,
    s.b + byte 7 24 + byte 6 16 + byte 5 8 + byte 4 0,
    s.c + byte 11 24 + byte 10 16 + byte 9 8 + byte 8 0⟩

/-- All blocks but the last are mixed. -/
def blocks (add : (Nat → UInt8) → Nat → JenkinsSt → JenkinsSt) (k : Nat → UInt8) (length : Nat)
    (s : JenkinsSt) : UInt32 :=
  if 12 < length then blocks add (fun i => k (i + 12)) (length - 12) (add k 12 s).mix
  else if length = 0 then s.c
  else (add k length s).final
termination_by length

end JenkinsSt

def JENKINS_INITVAL : UInt32 := 13

/-- `k` has the bytes from the key's first one on. -/
def hashkit_jenkins (address : Nat) (k : Nat → UInt8) (length : Nat) : UInt32 :=
  let init := 0xdeadbeef + UInt32.ofNat length + JENKINS_INITVAL
  if address &&& 3 = 0 then JenkinsSt.blocks JenkinsSt.words k length ⟨init, init, init⟩
  else if address &&& 1 = 0 then JenkinsSt.blocks JenkinsSt.halves k length ⟨init, init, init⟩
  else JenkinsSt.blocks JenkinsSt.bytes k length ⟨init, init, init⟩

/-! ## md5.c -/

/-- `state`. -/
structure Md5State where
  a : UInt32
  b : UInt32
  c : UInt32
  d : UInt32
deriving DecidableEq

inductive Md5Round
  | FF
  | GG
  | HH
  | II

def Md5Round.mix (x y z : UInt32) : Md5Round → UInt32
  | .FF => x &&& y ||| ~~~ x &&& z
  | .GG => x &&& z ||| y &&& ~~~ z
  | .HH => x ^^^ y ^^^ z
  | .II => y ^^^ (x ||| ~~~ z)

def ROTATE_LEFT (x n : UInt32) : UInt32 := x <<< n ||| x >>> (32 - n)

def S11 : UInt32 := 7
def S12 : UInt32 := 12
def S13 : UInt32 := 17
def S14 : UInt32 := 22
def S21 : UInt32 := 5
def S22 : UInt32 := 9
def S23 : UInt32 := 14
def S24 : UInt32 := 20
def S31 : UInt32 := 4
def S32 : UInt32 := 11
def S33 : UInt32 := 16
def S34 : UInt32 := 23
def S41 : UInt32 := 6
def S42 : UInt32 := 10
def S43 : UInt32 := 15
def S44 : UInt32 := 21

/-- The lines of `MD5Transform`: the word of the block, the rotation and the
constant of each. -/
def md5Steps : List (Md5Round × Nat × UInt32 × UInt32) :=
  [(.FF, 0, S11, 0xd76aa478), (.FF, 1, S12, 0xe8c7b756),
   (.FF, 2, S13, 0x242070db), (.FF, 3, S14, 0xc1bdceee),
   (.FF, 4, S11, 0xf57c0faf), (.FF, 5, S12, 0x4787c62a),
   (.FF, 6, S13, 0xa8304613), (.FF, 7, S14, 0xfd469501),
   (.FF, 8, S11, 0x698098d8), (.FF, 9, S12, 0x8b44f7af),
   (.FF, 10, S13, 0xffff5bb1), (.FF, 11, S14, 0x895cd7be),
   (.FF, 12, S11, 0x6b901122), (.FF, 13, S12, 0xfd987193),
   (.FF, 14, S13, 0xa679438e), (.FF, 15, S14, 0x49b40821),
   (.GG, 1, S21, 0xf61e2562), (.GG, 6, S22, 0xc040b340),
   (.GG, 11, S23, 0x265e5a51), (.GG, 0, S24, 0xe9b6c7aa),
   (.GG, 5, S21, 0xd62f105d), (.GG, 10, S22, 0x2441453),
   (.GG, 15, S23, 0xd8a1e681), (.GG, 4, S24, 0xe7d3fbc8),
   (.GG, 9, S21, 0x21e1cde6), (.GG, 14, S22, 0xc33707d6),
   (.GG, 3, S23, 0xf4d50d87), (.GG, 8, S24, 0x455a14ed),
   (.GG, 13, S21, 0xa9e3e905), (.GG, 2, S22, 0xfcefa3f8),
   (.GG, 7, S23, 0x676f02d9), (.GG, 12, S24, 0x8d2a4c8a),
   (.HH, 5, S31, 0xfffa3942), (.HH, 8, S32, 0x8771f681),
   (.HH, 11, S33, 0x6d9d6122), (.HH, 14, S34, 0xfde5380c),
   (.HH, 1, S31, 0xa4beea44), (.HH, 4, S32, 0x4bdecfa9),
   (.HH, 7, S33, 0xf6bb4b60), (.HH, 10, S34, 0xbebfbc70),
   (.HH, 13, S31, 0x289b7ec6), (.HH, 0, S32, 0xeaa127fa),
   (.HH, 3, S33, 0xd4ef3085), (.HH, 6, S34, 0x4881d05),
   (.HH, 9, S31, 0xd9d4d039), (.HH, 12, S32, 0xe6db99e5),
   (.HH, 15, S33, 0x1fa27cf8), (.HH, 2, S34, 0xc4ac5665),
   (.II, 0, S41, 0xf4292244), (.II, 7, S42, 0x432aff97),
   (.II, 14, S43, 0xab9423a7), (.II, 5, S44, 0xfc93a039),
   (.II, 12, S41, 0x655b59c3), (.II, 3, S42, 0x8f0ccc92),
   (.II, 10, S43, 0xffeff47d), (.II, 1, S44, 0x85845dd1),
   (.II, 8, S41, 0x6fa87e4f), (.II, 15, S42, 0xfe2ce6e0),
   (.II, 6, S43, 0xa3014314), (.II, 13, S44, 0x4e0811a1),
   (.II, 4, S41, 0xf7537e82), (.II, 11, S42, 0xbd3af235),
   (.II, 2, S43, 0x2ad7d2bb), (.II, 9, S44, 0xeb86d391)]

/-- `Decode`. -/
def Decode (input : Nat → UInt8) (i : Nat) : UInt32 :=
  (input (4 * i)).toUInt32 ||| (input (4 * i + 1)).toUInt32 <<< 8 |||
    (input (4 * i + 2)).toUInt32 <<< 16 ||| (input (4 * i + 3)).toUInt32 <<< 24

/-- `Encode` of one word. -/
def Encode (word : UInt32) : Bytes :=
  [(word &&& 0xff).toUInt8, (word >>> 8 &&& 0xff).toUInt8, (word >>> 16 &&& 0xff).toUInt8,
    (word >>> 24 &&& 0xff).toUInt8]

/-- A line of `MD5Transform`. The registers take turns: the next line calls the
one that was set `b`. -/
def md5Step (block : Nat → UInt8) (s : Md5State) (step : Md5Round × Nat × UInt32 × UInt32) :
    Md5State :=
  let (round, i, shift, ac) := step
  let a := s.a + (round.mix s.b s.c s.d + Decode block i + ac)
  ⟨s.d, ROTATE_LEFT a shift + s.b, s.b, s.c⟩

def MD5Transform (state : Md5State) (block : Nat → UInt8) : Md5State :=
  let done := md5Steps.foldl (md5Step block) state
  ⟨state.a + done.a, state.b + done.b, state.c + done.c, state.d + done.d⟩

/-- `MD5_CTX`. `count` has its low word first. -/
structure MD5_CTX where
  state : Md5State
  count : UInt32 × UInt32
  buffer : Nat → UInt8

/-- `MD5Init`, which leaves the buffer as it lies on the stack. -/
def MD5Init (stack : Nat → UInt8) : MD5_CTX :=
  ⟨⟨0x67452301, 0xefcdab89, 0x98badcfe, 0x10325476⟩, (0, 0), stack⟩

/-- The whole blocks of the rest of the input, and what is left of it. -/
def md5Loop (state : Md5State) (input : Bytes) : Md5State × Bytes :=
  if 63 < input.length then md5Loop (MD5Transform state (bytesAt input)) (input.drop 64)
  else (state, input)
termination_by input.length
decreasing_by rw [List.length_drop]; omega

/-- `MD5Update`, for an input that is shorter than `UINT_MAX - 63`. -/
def MD5Update (context : MD5_CTX) (input : Bytes) : MD5_CTX :=
  let idx := (context.count.1 >>> 3 &&& 0x3f).toNat
  let bits := UInt32.ofNat input.length <<< 3
  let low := context.count.1 + bits
  let carried := if low < bits then context.count.2 + 1 else context.count.2
  let count := (low, carried + UInt32.ofNat input.length >>> 29)
  let partLen := 64 - idx
  if partLen ≤ input.length then
    let buffer := memcpy context.buffer idx (input.take partLen)
    let (state, rest) := md5Loop (MD5Transform context.state buffer) (input.drop partLen)
    ⟨state, count, memcpy buffer 0 rest⟩
  else ⟨context.state, count, memcpy context.buffer idx input⟩

def PADDING : Bytes := 0x80 :: List.replicate 63 0

def MD5Final (context : MD5_CTX) : Bytes :=
  let bits := Encode context.count.1 ++ Encode context.count.2
  let idx := (context.count.1 >>> 3 &&& 0x3f).toNat
  let padLen := if idx < 56 then 56 - idx else 120 - idx
  let context := MD5Update (MD5Update context (PADDING.take padLen)) bits
  Encode context.state.a ++ Encode context.state.b ++ Encode context.state.c ++
    Encode context.state.d

def md5_signature (stack : Nat → UInt8) (key : Bytes) : Bytes :=
  MD5Final (MD5Update (MD5Init stack) key)

def hashkit_md5 (stack : Nat → UInt8) (key : Bytes) : UInt32 :=
  let results := fun i => (bytesAt (md5_signature stack key) i).toUInt32
  (results 3 &&& 0xff) <<< 24 ||| (results 2 &&& 0xff) <<< 16 ||| (results 1 &&& 0xff) <<< 8 |||
    results 0 &&& 0xff

/-! ## digest.c -/

/-- Where the key of a call lies, with what is behind it there, and what lies
on the stack. -/
structure Place where
  address : Nat
  beyond : Nat → UInt8
  stack : Nat → UInt8

/-- The memory from a key on. -/
def Place.memory (place : Place) (key : Bytes) (i : Nat) : UInt8 :=
  if i < key.length then bytesAt key i else place.beyond i

/-- `libhashkit_digest`. -/
def libhashkit_digest (have_hsieh : Bool) (place : Place) (key : Bytes) :
    hashkit_hash_algorithm_t → UInt32
  | .DEFAULT => hashkit_one_at_a_time key
  | .MD5 => hashkit_md5 place.stack key
  | .CRC => hashkit_crc32 key
  | .FNV1_64 => hashkit_fnv1_64 key
  | .FNV1A_64 => hashkit_fnv1a_64 key
  | .FNV1_32 => hashkit_fnv1_32 key
  | .FNV1A_32 => hashkit_fnv1a_32 key
  | .HSIEH => if have_hsieh then hashkit_hsieh key else 1
  | .MURMUR => hashkit_murmur key
  | .JENKINS => hashkit_jenkins place.address (place.memory key) key.length
  | .CUSTOM => 1
  | .MAX => 1

/-- The library, for keys that lie at one place. -/
def libhashkit (have_hsieh : Bool) (place : Place) : Hashkit where
  digest algorithm key := libhashkit_digest have_hsieh place key algorithm
  md5_signature key i := bytesAt (Libmemcached.md5_signature place.stack key) i
  have_hsieh := have_hsieh

end Libmemcached
