import Conveyor.Text.Runs

/-! Upper and lower case for all of Unicode. Most letters come in pairs of a capital and a small letter. Some have an upper
case that is several characters long. A capital sigma has two lower cases, one of them for the end of a word: where a
cased letter stands before it and none after it, marks that have no case of their own left out. -/

namespace Conveyor.Text

/-- First and last letters of stretches in which capital and small letters alternate. -/
def alternating : List (Nat × Nat) :=
  [
    (0x100, 0x12f), (0x132, 0x137), (0x139, 0x148), (0x14a, 0x177), (0x179, 0x17e), (0x182, 0x185),
    (0x187, 0x188), (0x18b, 0x18c), (0x191, 0x192), (0x198, 0x199), (0x1a0, 0x1a5), (0x1a7, 0x1a8),
    (0x1ac, 0x1ad), (0x1af, 0x1b0), (0x1b3, 0x1b6), (0x1b8, 0x1b9), (0x1bc, 0x1bd), (0x1cd, 0x1dc),
    (0x1de, 0x1ef), (0x1f4, 0x1f5), (0x1f8, 0x21f), (0x222, 0x233), (0x23b, 0x23c), (0x241, 0x242),
    (0x246, 0x24f), (0x370, 0x373), (0x376, 0x377), (0x3d8, 0x3ef), (0x3f7, 0x3f8), (0x3fa, 0x3fb),
    (0x460, 0x481), (0x48a, 0x4bf), (0x4c1, 0x4ce), (0x4d0, 0x52f), (0x1e00, 0x1e95),
    (0x1ea0, 0x1eff), (0x2183, 0x2184), (0x2c60, 0x2c61), (0x2c67, 0x2c6c), (0x2c72, 0x2c73),
    (0x2c75, 0x2c76), (0x2c80, 0x2ce3), (0x2ceb, 0x2cee), (0x2cf2, 0x2cf3), (0xa640, 0xa66d),
    (0xa680, 0xa69b), (0xa722, 0xa72f), (0xa732, 0xa76f), (0xa779, 0xa77c), (0xa77e, 0xa787),
    (0xa78b, 0xa78c), (0xa790, 0xa793), (0xa796, 0xa7a9), (0xa7b4, 0xa7c3), (0xa7c7, 0xa7ca),
    (0xa7d0, 0xa7d1), (0xa7d6, 0xa7d9), (0xa7f5, 0xa7f6)
  ]

/-- The first capital letter of a stretch, its length, and the first of the small letters. -/
def pairedRuns : List (Nat × Nat × Nat) :=
  [
    (0xc0, 23, 0xe0), (0xd8, 7, 0xf8), (0x178, 1, 0xff), (0x181, 1, 0x253), (0x186, 1, 0x254),
    (0x189, 2, 0x256), (0x18e, 1, 0x1dd), (0x18f, 1, 0x259), (0x190, 1, 0x25b), (0x193, 1, 0x260),
    (0x194, 1, 0x263), (0x196, 1, 0x269), (0x197, 1, 0x268), (0x19c, 1, 0x26f), (0x19d, 1, 0x272),
    (0x19f, 1, 0x275), (0x1a6, 1, 0x280), (0x1a9, 1, 0x283), (0x1ae, 1, 0x288), (0x1b1, 2, 0x28a),
    (0x1b7, 1, 0x292), (0x1c4, 1, 0x1c6), (0x1c7, 1, 0x1c9), (0x1ca, 1, 0x1cc), (0x1f1, 1, 0x1f3),
    (0x1f6, 1, 0x195), (0x1f7, 1, 0x1bf), (0x220, 1, 0x19e), (0x23a, 1, 0x2c65), (0x23d, 1, 0x19a),
    (0x23e, 1, 0x2c66), (0x243, 1, 0x180), (0x244, 1, 0x289), (0x245, 1, 0x28c), (0x37f, 1, 0x3f3),
    (0x386, 1, 0x3ac), (0x388, 3, 0x3ad), (0x38c, 1, 0x3cc), (0x38e, 2, 0x3cd), (0x391, 17, 0x3b1),
    (0x3a3, 9, 0x3c3), (0x3cf, 1, 0x3d7), (0x3f9, 1, 0x3f2), (0x3fd, 3, 0x37b), (0x400, 16, 0x450),
    (0x410, 32, 0x430), (0x4c0, 1, 0x4cf), (0x531, 38, 0x561), (0x10a0, 38, 0x2d00),
    (0x10c7, 1, 0x2d27), (0x10cd, 1, 0x2d2d), (0x13a0, 80, 0xab70), (0x13f0, 6, 0x13f8),
    (0x1c90, 43, 0x10d0), (0x1cbd, 3, 0x10fd), (0x1f08, 8, 0x1f00), (0x1f18, 6, 0x1f10),
    (0x1f28, 8, 0x1f20), (0x1f38, 8, 0x1f30), (0x1f48, 6, 0x1f40), (0x1f59, 1, 0x1f51),
    (0x1f5b, 1, 0x1f53), (0x1f5d, 1, 0x1f55), (0x1f5f, 1, 0x1f57), (0x1f68, 8, 0x1f60),
    (0x1fb8, 2, 0x1fb0), (0x1fba, 2, 0x1f70), (0x1fc8, 4, 0x1f72), (0x1fd8, 2, 0x1fd0),
    (0x1fda, 2, 0x1f76), (0x1fe8, 2, 0x1fe0), (0x1fea, 2, 0x1f7a), (0x1fec, 1, 0x1fe5),
    (0x1ff8, 2, 0x1f78), (0x1ffa, 2, 0x1f7c), (0x2132, 1, 0x214e), (0x2160, 16, 0x2170),
    (0x24b6, 26, 0x24d0), (0x2c00, 48, 0x2c30), (0x2c62, 1, 0x26b), (0x2c63, 1, 0x1d7d),
    (0x2c64, 1, 0x27d), (0x2c6d, 1, 0x251), (0x2c6e, 1, 0x271), (0x2c6f, 1, 0x250),
    (0x2c70, 1, 0x252), (0x2c7e, 2, 0x23f), (0xa77d, 1, 0x1d79), (0xa78d, 1, 0x265),
    (0xa7aa, 1, 0x266), (0xa7ab, 1, 0x25c), (0xa7ac, 1, 0x261), (0xa7ad, 1, 0x26c),
    (0xa7ae, 1, 0x26a), (0xa7b0, 1, 0x29e), (0xa7b1, 1, 0x287), (0xa7b2, 1, 0x29d),
    (0xa7b3, 1, 0xab53), (0xa7c4, 1, 0xa794), (0xa7c5, 1, 0x282), (0xa7c6, 1, 0x1d8e),
    (0xff21, 26, 0xff41), (0x10400, 40, 0x10428), (0x104b0, 36, 0x104d8), (0x10570, 11, 0x10597),
    (0x1057c, 15, 0x105a3), (0x1058c, 7, 0x105b3), (0x10594, 2, 0x105bb), (0x10c80, 51, 0x10cc0),
    (0x118a0, 32, 0x118c0), (0x16e40, 32, 0x16e60), (0x1e900, 34, 0x1e922)
  ]

/-- Letters that share their upper case with others, in stretches: the first, their number, its upper case. -/
def upperRuns : List (Nat × Nat × Nat) :=
  [
    (0xb5, 1, 0x39c), (0x131, 1, 0x49), (0x17f, 1, 0x53), (0x1c5, 1, 0x1c4), (0x1c8, 1, 0x1c7),
    (0x1cb, 1, 0x1ca), (0x1f2, 1, 0x1f1), (0x345, 1, 0x399), (0x3c2, 1, 0x3a3), (0x3d0, 1, 0x392),
    (0x3d1, 1, 0x398), (0x3d5, 1, 0x3a6), (0x3d6, 1, 0x3a0), (0x3f0, 1, 0x39a), (0x3f1, 1, 0x3a1),
    (0x3f5, 1, 0x395), (0x1c80, 1, 0x412), (0x1c81, 1, 0x414), (0x1c82, 1, 0x41e),
    (0x1c83, 2, 0x421), (0x1c85, 1, 0x422), (0x1c86, 1, 0x42a), (0x1c87, 1, 0x462),
    (0x1c88, 1, 0xa64a), (0x1e9b, 1, 0x1e60), (0x1fbe, 1, 0x399)
  ]

def lowerRuns : List (Nat × Nat × Nat) :=
  [
    (0x1c5, 1, 0x1c6), (0x1c8, 1, 0x1c9), (0x1cb, 1, 0x1cc), (0x1f2, 1, 0x1f3), (0x3f4, 1, 0x3b8),
    (0x1e9e, 1, 0xdf), (0x1f88, 8, 0x1f80), (0x1f98, 8, 0x1f90), (0x1fa8, 8, 0x1fa0),
    (0x1fbc, 1, 0x1fb3), (0x1fcc, 1, 0x1fc3), (0x1ffc, 1, 0x1ff3), (0x2126, 1, 0x3c9),
    (0x212a, 1, 0x6b), (0x212b, 1, 0xe5)
  ]

/-- Letters with an iota below, which stands after the letter in upper case. -/
def iotaRuns : List (Nat × Nat × Nat) :=
  [
    (0x1f80, 8, 0x1f08), (0x1f88, 8, 0x1f08), (0x1f90, 8, 0x1f28), (0x1f98, 8, 0x1f28),
    (0x1fa0, 8, 0x1f68), (0x1fa8, 8, 0x1f68), (0x1fb2, 1, 0x1fba), (0x1fb3, 1, 0x391),
    (0x1fb4, 1, 0x386), (0x1fbc, 1, 0x391), (0x1fc2, 1, 0x1fca), (0x1fc3, 1, 0x397),
    (0x1fc4, 1, 0x389), (0x1fcc, 1, 0x397), (0x1ff2, 1, 0x1ffa), (0x1ff3, 1, 0x3a9),
    (0x1ff4, 1, 0x38f), (0x1ffc, 1, 0x3a9)
  ]

def upperSequences : List (Nat × List Nat) :=
  [
    (0xdf, [0x53, 0x53]), (0x149, [0x2bc, 0x4e]), (0x1f0, [0x4a, 0x30c]),
    (0x390, [0x399, 0x308, 0x301]), (0x3b0, [0x3a5, 0x308, 0x301]), (0x587, [0x535, 0x552]),
    (0x1e96, [0x48, 0x331]), (0x1e97, [0x54, 0x308]), (0x1e98, [0x57, 0x30a]),
    (0x1e99, [0x59, 0x30a]), (0x1e9a, [0x41, 0x2be]), (0x1f50, [0x3a5, 0x313]),
    (0x1f52, [0x3a5, 0x313, 0x300]), (0x1f54, [0x3a5, 0x313, 0x301]),
    (0x1f56, [0x3a5, 0x313, 0x342]), (0x1fb6, [0x391, 0x342]), (0x1fb7, [0x391, 0x342, 0x399]),
    (0x1fc6, [0x397, 0x342]), (0x1fc7, [0x397, 0x342, 0x399]), (0x1fd2, [0x399, 0x308, 0x300]),
    (0x1fd3, [0x399, 0x308, 0x301]), (0x1fd6, [0x399, 0x342]), (0x1fd7, [0x399, 0x308, 0x342]),
    (0x1fe2, [0x3a5, 0x308, 0x300]), (0x1fe3, [0x3a5, 0x308, 0x301]), (0x1fe4, [0x3a1, 0x313]),
    (0x1fe6, [0x3a5, 0x342]), (0x1fe7, [0x3a5, 0x308, 0x342]), (0x1ff6, [0x3a9, 0x342]),
    (0x1ff7, [0x3a9, 0x342, 0x399]), (0xfb00, [0x46, 0x46]), (0xfb01, [0x46, 0x49]),
    (0xfb02, [0x46, 0x4c]), (0xfb03, [0x46, 0x46, 0x49]), (0xfb04, [0x46, 0x46, 0x4c]),
    (0xfb05, [0x53, 0x54]), (0xfb06, [0x53, 0x54]), (0xfb13, [0x544, 0x546]),
    (0xfb14, [0x544, 0x535]), (0xfb15, [0x544, 0x53b]), (0xfb16, [0x54e, 0x546]),
    (0xfb17, [0x544, 0x53d])
  ]

def casedRuns : List Nat :=
  [
    65, 26, 6, 26, 47, 1, 10, 1, 4, 1, 5, 23, 1, 31, 1, 195, 1, 4, 4, 208, 1, 27, 192, 4, 2, 2, 3,
    3, 1, 1, 6, 1, 1, 3, 1, 1, 1, 20, 1, 83, 1, 139, 8, 166, 1, 38, 9, 41, 2839, 38, 1, 1, 5, 1, 2,
    43, 2, 3, 672, 86, 2, 6, 2178, 9, 7, 43, 2, 3, 64, 44, 63, 13, 1, 34, 101, 278, 2, 6, 2, 38, 2,
    6, 2, 8, 1, 1, 1, 1, 1, 1, 1, 31, 2, 53, 1, 7, 1, 1, 3, 3, 1, 7, 3, 4, 2, 6, 4, 13, 5, 3, 1, 7,
    261, 1, 4, 1, 2, 10, 1, 1, 3, 5, 6, 1, 1, 1, 1, 1, 1, 4, 1, 6, 4, 1, 2, 4, 5, 5, 4, 1, 17, 32,
    3, 2, 817, 52, 1814, 124, 2, 103, 6, 4, 3, 2, 12, 38, 1, 1, 5, 1, 30994, 46, 18, 28, 134, 78, 1,
    23, 3, 4, 1, 59, 5, 2, 1, 1, 1, 5, 27, 2, 3, 1, 821, 43, 5, 9, 7, 80, 20288, 7, 12, 5, 1033, 26,
    6, 26, 1189, 80, 96, 36, 4, 36, 116, 11, 1, 15, 1, 7, 1, 2, 1, 11, 1, 15, 1, 7, 1, 2, 1731, 51,
    13, 51, 2989, 64, 21856, 64, 25984, 85, 1, 71, 1, 2, 2, 1, 2, 2, 2, 4, 1, 12, 1, 1, 1, 7, 1, 65,
    1, 4, 2, 8, 1, 7, 1, 28, 1, 4, 1, 5, 1, 1, 3, 7, 1, 340, 2, 25, 1, 25, 1, 31, 1, 25, 1, 31, 1,
    25, 1, 31, 1, 25, 1, 31, 1, 25, 1, 8, 1844, 10, 1, 20, 2529, 68, 2028, 26, 6, 26, 6, 26
  ]

/-- Marks that are left out where the case of neighbours counts. -/
def caselessMarkRuns : List Nat :=
  [
    39, 1, 6, 1, 11, 1, 35, 1, 1, 1, 71, 1, 4, 1, 1, 1, 4, 1, 2, 2, 503, 192, 4, 2, 4, 1, 9, 2, 1,
    1, 251, 7, 207, 1, 5, 1, 49, 45, 1, 1, 1, 2, 1, 2, 1, 1, 44, 1, 11, 6, 10, 11, 1, 1, 35, 1, 10,
    21, 16, 1, 101, 8, 1, 10, 1, 4, 33, 1, 1, 1, 30, 27, 91, 11, 58, 11, 4, 1, 2, 1, 24, 24, 43, 3,
    44, 1, 7, 2, 6, 8, 41, 58, 55, 1, 1, 1, 4, 8, 4, 1, 3, 7, 10, 2, 13, 1, 15, 1, 58, 1, 4, 4, 8,
    1, 20, 2, 26, 1, 2, 2, 57, 1, 4, 2, 4, 2, 2, 3, 3, 1, 30, 2, 3, 1, 11, 2, 57, 1, 4, 5, 1, 2, 4,
    1, 20, 2, 22, 6, 1, 1, 58, 1, 2, 1, 1, 4, 8, 1, 7, 2, 11, 2, 30, 1, 61, 1, 12, 1, 50, 1, 3, 1,
    55, 1, 1, 3, 5, 3, 1, 4, 7, 2, 11, 2, 29, 1, 58, 1, 2, 1, 6, 1, 5, 2, 20, 2, 28, 2, 57, 2, 4, 4,
    8, 1, 20, 2, 29, 1, 72, 1, 7, 3, 1, 1, 90, 1, 2, 7, 11, 9, 98, 1, 2, 9, 9, 1, 1, 6, 74, 2, 27,
    1, 1, 1, 1, 1, 55, 14, 1, 5, 1, 2, 5, 11, 1, 36, 9, 1, 102, 4, 1, 6, 1, 2, 2, 2, 25, 2, 4, 3,
    16, 4, 13, 1, 2, 2, 6, 1, 15, 1, 94, 1, 608, 3, 946, 3, 29, 2, 30, 2, 30, 2, 64, 2, 1, 7, 8, 1,
    2, 11, 3, 1, 5, 1, 45, 5, 51, 1, 65, 2, 34, 1, 118, 3, 4, 2, 9, 1, 6, 3, 219, 2, 2, 1, 58, 1, 1,
    7, 1, 1, 1, 1, 2, 8, 6, 10, 2, 1, 39, 1, 8, 31, 49, 4, 48, 1, 1, 5, 1, 1, 5, 1, 40, 9, 12, 2,
    32, 4, 2, 2, 1, 3, 56, 1, 1, 2, 3, 1, 1, 3, 58, 8, 2, 2, 64, 6, 82, 3, 1, 13, 1, 7, 4, 1, 6, 1,
    3, 2, 50, 63, 13, 1, 34, 101, 445, 1, 1, 3, 11, 3, 13, 3, 13, 3, 13, 2, 12, 5, 8, 2, 10, 1, 2,
    1, 2, 5, 49, 5, 1, 10, 1, 1, 13, 1, 16, 13, 51, 33, 2955, 2, 113, 3, 125, 1, 15, 1, 96, 32, 47,
    1, 469, 1, 36, 4, 3, 5, 5, 1, 93, 6, 93, 3, 28438, 1, 1250, 6, 270, 1, 98, 4, 1, 10, 1, 1, 28,
    4, 80, 2, 14, 34, 78, 1, 23, 3, 103, 3, 3, 2, 8, 1, 3, 1, 4, 1, 25, 2, 5, 1, 151, 2, 26, 18, 13,
    1, 38, 8, 25, 11, 46, 3, 48, 1, 2, 4, 2, 2, 17, 1, 21, 2, 66, 6, 2, 2, 2, 2, 12, 1, 8, 1, 35, 1,
    11, 1, 51, 1, 1, 3, 2, 2, 5, 2, 1, 1, 27, 1, 14, 2, 5, 2, 1, 1, 100, 5, 9, 3, 121, 1, 2, 1, 4,
    1, 20272, 1, 147, 17, 573, 16, 3, 1, 12, 16, 34, 1, 2, 1, 169, 1, 7, 1, 6, 1, 11, 1, 35, 1, 1,
    1, 47, 1, 45, 2, 67, 1, 21, 3, 513, 1, 226, 1, 149, 5, 1029, 6, 1, 42, 1, 9, 582, 3, 1, 2, 5, 4,
    40, 3, 4, 1, 165, 2, 573, 4, 387, 2, 153, 11, 49, 4, 123, 1, 54, 15, 41, 1, 2, 2, 10, 3, 49, 4,
    2, 2, 2, 1, 4, 1, 10, 1, 50, 3, 36, 5, 1, 8, 62, 1, 12, 2, 52, 9, 10, 4, 2, 1, 95, 3, 2, 1, 1,
    2, 6, 1, 160, 1, 3, 8, 21, 2, 57, 2, 3, 1, 37, 7, 3, 5, 195, 8, 2, 3, 1, 1, 23, 1, 84, 6, 1, 1,
    4, 2, 1, 2, 238, 4, 6, 2, 1, 2, 27, 2, 85, 8, 2, 1, 1, 2, 106, 1, 1, 1, 2, 6, 1, 1, 101, 3, 2,
    4, 1, 5, 259, 9, 1, 2, 256, 2, 1, 1, 4, 1, 144, 4, 2, 2, 4, 1, 32, 10, 40, 6, 2, 4, 8, 1, 9, 6,
    2, 3, 46, 13, 1, 2, 406, 7, 1, 6, 1, 1, 82, 22, 2, 7, 1, 2, 1, 2, 122, 6, 3, 1, 1, 2, 1, 7, 1,
    1, 72, 2, 3, 1, 1, 1, 347, 2, 5435, 9, 14007, 5, 59, 7, 9, 4, 1035, 1, 63, 17, 64, 2, 1, 2,
    16395, 4, 1, 7, 1, 2, 3230, 2, 1, 4, 4700, 46, 2, 23, 544, 3, 9, 16, 2, 7, 30, 4, 148, 3, 1979,
    55, 4, 50, 8, 1, 14, 1, 22, 5, 1, 15, 1360, 7, 1, 17, 2, 7, 1, 2, 1, 5, 261, 14, 368, 1, 61, 4,
    1504, 7, 109, 8, 2735, 5, 789505, 1, 30, 96, 128, 240
  ]

/-- What the runs make of a character that is in one of them. -/
def moved? (runs : List (Nat × Nat × Nat)) (n : Nat) : Option Nat :=
  runs.findSome? fun (first, count, target) =>
    if first ≤ n ∧ n < first + count then some (target + (n - first)) else none

def isAlternate (n parity : Nat) : Bool :=
  alternating.any fun (first, last) => first ≤ n && n ≤ last && (n - first) % 2 == parity

def capital (n : Nat) : Nat :=
  if isAlternate n 1 then n - 1
  else (moved? upperRuns n <|> moved? (pairedRuns.map fun (large, count, small) => (small, count, large)) n).getD n

def small (n : Nat) : Nat :=
  if isAlternate n 0 then n + 1 else (moved? lowerRuns n <|> moved? pairedRuns n).getD n

def upperChar (c : Char) : List Char :=
  if c.toNat < 0x80 then [c.toUpper]
  else
    match upperSequences.find? (·.1 = c.toNat), moved? iotaRuns c.toNat with
    | some (_, sequence), _ => sequence.map Char.ofNat
    | none, some letter => [Char.ofNat letter, Char.ofNat 0x399]
    | none, none => [Char.ofNat (capital c.toNat)]

def upper (s : String) : String := String.ofList (s.toList.flatMap upperChar)

def meetsCased (cs : List Char) : Bool :=
  match cs.dropWhile (inRuns caselessMarkRuns) with
  | c :: _ => inRuns casedRuns c
  | [] => false

def lowerChar (c : Char) : List Char :=
  if c.toNat < 0x80 then [c.toLower]
  else if c.toNat = 0x130 then ['i', Char.ofNat 0x307]
  else [Char.ofNat (small c.toNat)]

def lowerAfter : (before : List Char) → List Char → List Char
  | _, [] => []
  | before, c :: rest =>
    let lowered :=
      if c.toNat = 0x3a3 then
        [Char.ofNat (if meetsCased before && !meetsCased rest then 0x3c2 else 0x3c3)]
      else lowerChar c
    lowered ++ lowerAfter (c :: before) rest

def lower (s : String) : String := String.ofList (lowerAfter [] s.toList)

end Conveyor.Text
