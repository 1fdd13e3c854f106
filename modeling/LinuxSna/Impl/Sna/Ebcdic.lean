import Mathlib
/-!
# EBCDIC

The converters of `sna_ebcdic.c`, as far as the kernel uses them on names.
-/

namespace LinuxSna.Ebcdic

/-- `ascii_to_ebcdic_sna`; the rest of the table are zeros. -/
def asciiToEbcdicSna : List UInt8 :=
  [0, 1, 2, 3, 55, 45, 46, 47, 22, 5, 37, 11, 12, 13, 14, 15,
    16, 0, 0, 0, 0, 61, 50, 38, 24, 25, 63, 39, 0, 0, 0, 0,
    64, 0, 127, 123, 80, 108, 91, 121, 77, 93, 53, 78, 107, 96, 75, 97,
    240, 241, 242, 243, 244, 245, 246, 247, 248, 249, 122, 94, 76, 126, 110, 111,
    124, 193, 194, 195, 196, 197, 198, 199, 200, 201, 209, 210, 211, 212, 213, 214,
    215, 216, 217, 226, 227, 228, 229, 230, 231, 232, 233, 74, 224, 0, 95, 109,
    125, 129, 130, 131, 132, 133, 134, 135, 136, 137, 145, 146, 147, 148, 149, 150,
    151, 152, 153, 162, 163, 164, 165, 166, 167, 168, 169, 192, 106, 208, 161, 7]

def atoe (a : UInt8) : UInt8 := asciiToEbcdicSna.getD a.toNat 0

/-- `atoe_strncpy`, to an array -/
def atoeStrncpy : Nat → List UInt8 → List UInt8 → List UInt8
  | n + 1, _ :: dest, s :: src => atoe s :: if atoe s = 0 then dest else atoeStrncpy n dest src
  | _, dest, _ => dest

/-- `fatoe_strncpy`, of an array to itself -/
def fatoeStrncpy (count : Nat) (s : List UInt8) : List UInt8 :=
  (s.take count).map atoe ++ s.drop count

/-- `ebcdic_to_rotated` -/
def ebcdicToRotated : List UInt8 :=
  [0, 1, 2, 3, 4, 5, 6, 7, 8, 9, 10, 11, 12, 13, 14, 15,
    16, 17, 18, 19, 20, 21, 22, 23, 24, 25, 26, 27, 28, 29, 30, 31,
    32, 33, 34, 35, 36, 37, 38, 39, 40, 41, 42, 43, 44, 45, 46, 47,
    48, 49, 50, 51, 52, 53, 54, 55, 56, 57, 58, 59, 60, 61, 62, 63,
    1, 65, 66, 67, 68, 69, 70, 71, 72, 73, 74, 75, 76, 77, 78, 79,
    80, 81, 82, 83, 84, 85, 86, 87, 88, 89, 90, 109, 92, 93, 94, 95,
    96, 97, 98, 99, 100, 101, 102, 103, 104, 105, 106, 107, 108, 109, 110, 111,
    112, 113, 114, 115, 116, 117, 118, 119, 120, 121, 122, 237, 241, 125, 126, 127,
    128, 129, 130, 131, 132, 133, 134, 135, 136, 137, 138, 139, 140, 141, 142, 143,
    144, 145, 146, 147, 148, 149, 150, 151, 152, 153, 154, 155, 156, 157, 158, 159,
    160, 161, 162, 163, 164, 165, 166, 167, 168, 169, 170, 171, 172, 173, 174, 175,
    176, 177, 178, 179, 180, 181, 182, 183, 184, 185, 186, 187, 188, 189, 190, 191,
    192, 7, 11, 14, 19, 23, 27, 31, 35, 39, 202, 203, 204, 205, 206, 207,
    208, 71, 75, 79, 83, 87, 91, 95, 99, 103, 218, 219, 220, 221, 222, 223,
    224, 225, 139, 143, 147, 151, 155, 159, 163, 167, 234, 235, 236, 237, 238, 239,
    195, 199, 203, 207, 211, 215, 219, 223, 227, 231, 250, 251, 252, 253, 254, 255]

def etor (a : UInt8) : UInt8 := ebcdicToRotated.getD a.toNat 0

/-- `etor_strncpy`, of an array to itself -/
def etorStrncpy : Nat → List UInt8 → List UInt8
  | n + 1, s :: l => etor s :: if etor s = 0 then l else etorStrncpy n l
  | _, l => l

end LinuxSna.Ebcdic
