/-!
# Character classes beyond the basic alphabet

Which characters print as themselves, which count as punctuation, and how letters change case. The
tables follow Unicode 14. Each is written as text, a run of code points per word in base sixteen,
and read once; the small classes that programs reason about are plain definitions instead.

## Main definitions

* `isBlank`: the characters that count as white space.
* `isPrintable`: the characters that a quoted text shows as they are.
* `isPunctuation`: ASCII punctuation and every other punctuation mark or symbol.
* `lower`, `upper`: full case mappings of a list of characters.

Reference: the tests of characters and the case mappings of the standard library, as the functions
over texts use them.
-/

namespace NotebookTree.Text

/-- White space: the ASCII blanks, the information separators, and the Unicode spaces. -/
def isBlank (c : Char) : Bool :=
  let n := c.toNat
  (9 ≤ n && n ≤ 13) || (28 ≤ n && n ≤ 32) || n == 0x85 || n == 0xA0 || n == 0x1680 ||
  (0x2000 ≤ n && n ≤ 0x200A) || n == 0x2028 || n == 0x2029 || n == 0x202F || n == 0x205F ||
  n == 0x3000

/-- ASCII letters. -/
def isAsciiLetter (c : Char) : Bool :=
  ('a' ≤ c && c ≤ 'z') || ('A' ≤ c && c ≤ 'Z')

/-- ASCII digits. -/
def isAsciiDigit (c : Char) : Bool :=
  '0' ≤ c && c ≤ '9'

/-- ASCII punctuation: everything from `!` to `~` that is neither letter nor digit. -/
def isAsciiPunctuation (c : Char) : Bool :=
  '!' ≤ c && c ≤ '~' && !isAsciiLetter c && !isAsciiDigit c

/-- The value of a digit in base sixteen. -/
def hexDigit? (c : Char) : Option Nat :=
  if '0' ≤ c && c ≤ '9' then some (c.toNat - 48)
  else if 'a' ≤ c && c ≤ 'f' then some (c.toNat - 87)
  else if 'A' ≤ c && c ≤ 'F' then some (c.toNat - 55)
  else none

/-- Reads a number in base sixteen; characters that are no digits are skipped. -/
def readHex (cs : List Char) : Nat :=
  cs.foldl (fun n c => match hexDigit? c with
    | some d => 16 * n + d
    | none => n) 0

/-- Splits a list at every element for which `p` holds; the elements themselves are dropped. -/
def splitWhere (p : Char → Bool) : List Char → List (List Char)
  | [] => [[]]
  | c :: cs =>
    if p c then [] :: splitWhere p cs
    else match splitWhere p cs with
      | [] => [[c]]
      | w :: ws => (c :: w) :: ws

/-- The words between blanks. -/
def words (cs : List Char) : List (List Char) :=
  (splitWhere isBlank cs).filter (fun w => !w.isEmpty)

/-- A run of code points, both ends included. -/
structure CodeRange where
  first : Nat
  last : Nat

/-- Reads a table of runs, each `first-last` or a single code point. -/
def readRanges (table : String) : Array CodeRange :=
  ((words table.toList).map (fun w => match splitWhere (· == '-') w with
    | [a, b] => ⟨readHex a, readHex b⟩
    | _ => ⟨readHex w, readHex w⟩)).toArray

/-- Whether some run holds the code point. -/
def inRanges (rs : Array CodeRange) (n : Nat) : Bool :=
  rs.any (fun r => r.first ≤ n && n ≤ r.last)

/-- The controls from 127 up, the space that does not break, and what separates lines and paragraphs
or turns the direction of text. -/
def isControl (c : Char) : Bool :=
  let n := c.toNat
  (0x7F ≤ n && n ≤ 0xA0) || (0x2028 ≤ n && n ≤ 0x202F)

/-- The other code points from 127 up that do not print: formats, separators other than the plain
space, private and unassigned ones. -/
def unprintableTable : String :=
"ad 378-379 380-383 38b 38d 3a2 530 557-558 58b-58c 590 5c8-5cf 5eb-5ee 5f5-605 61c 6dd
70e-70f 74b-74c 7b2-7bf 7fb-7fc 82e-82f 83f 85c-85d 85f 86b-86f 88f-897 8e2 984 98d-98e 991-992
9a9 9b1 9b3-9b5 9ba-9bb 9c5-9c6 9c9-9ca 9cf-9d6 9d8-9db 9de 9e4-9e5 9ff-a00 a04 a0b-a0e a11-a12
a29 a31 a34 a37 a3a-a3b a3d a43-a46 a49-a4a a4e-a50 a52-a58 a5d a5f-a65 a77-a80 a84 a8e a92 aa9
ab1 ab4 aba-abb ac6 aca ace-acf ad1-adf ae4-ae5 af2-af8 b00 b04 b0d-b0e b11-b12 b29 b31 b34
b3a-b3b b45-b46 b49-b4a b4e-b54 b58-b5b b5e b64-b65 b78-b81 b84 b8b-b8d b91 b96-b98 b9b b9d
ba0-ba2 ba5-ba7 bab-bad bba-bbd bc3-bc5 bc9 bce-bcf bd1-bd6 bd8-be5 bfb-bff c0d c11 c29 c3a-c3b
c45 c49 c4e-c54 c57 c5b-c5c c5e-c5f c64-c65 c70-c76 c8d c91 ca9 cb4 cba-cbb cc5 cc9 cce-cd4
cd7-cdc cdf ce4-ce5 cf0 cf3-cff d0d d11 d45 d49 d50-d53 d64-d65 d80 d84 d97-d99 db2 dbc dbe-dbf
dc7-dc9 dcb-dce dd5 dd7 de0-de5 df0-df1 df5-e00 e3b-e3e e5c-e80 e83 e85 e8b ea4 ea6 ebe-ebf ec5
ec7 ece-ecf eda-edb ee0-eff f48 f6d-f70 f98 fbd fcd fdb-fff 10c6 10c8-10cc 10ce-10cf 1249
124e-124f 1257 1259 125e-125f 1289 128e-128f 12b1 12b6-12b7 12bf 12c1 12c6-12c7 12d7 1311
1316-1317 135b-135c 137d-137f 139a-139f 13f6-13f7 13fe-13ff 1680 169d-169f 16f9-16ff 1716-171e
1737-173f 1754-175f 176d 1771 1774-177f 17de-17df 17ea-17ef 17fa-17ff 180e 181a-181f 1879-187f
18ab-18af 18f6-18ff 191f 192c-192f 193c-193f 1941-1943 196e-196f 1975-197f 19ac-19af 19ca-19cf
19db-19dd 1a1c-1a1d 1a5f 1a7d-1a7e 1a8a-1a8f 1a9a-1a9f 1aae-1aaf 1acf-1aff 1b4d-1b4f 1b7f
1bf4-1bfb 1c38-1c3a 1c4a-1c4c 1c89-1c8f 1cbb-1cbc 1cc8-1ccf 1cfb-1cff 1f16-1f17 1f1e-1f1f
1f46-1f47 1f4e-1f4f 1f58 1f5a 1f5c 1f5e 1f7e-1f7f 1fb5 1fc5 1fd4-1fd5 1fdc 1ff0-1ff1 1ff5
1fff-200f 205f-206f 2072-2073 208f 209d-209f 20c1-20cf 20f1-20ff 218c-218f 2427-243f
244b-245f 2b74-2b75 2b96 2cf4-2cf8 2d26 2d28-2d2c 2d2e-2d2f 2d68-2d6e 2d71-2d7e 2d97-2d9f 2da7
2daf 2db7 2dbf 2dc7 2dcf 2dd7 2ddf 2e5e-2e7f 2e9a 2ef4-2eff 2fd6-2fef 2ffc-3000 3040 3097-3098
3100-3104 3130 318f 31e4-31ef 321f a48d-a48f a4c7-a4cf a62c-a63f a6f8-a6ff a7cb-a7cf a7d2 a7d4
a7da-a7f1 a82d-a82f a83a-a83f a878-a87f a8c6-a8cd a8da-a8df a954-a95e a97d-a97f a9ce a9da-a9dd
a9ff aa37-aa3f aa4e-aa4f aa5a-aa5b aac3-aada aaf7-ab00 ab07-ab08 ab0f-ab10 ab17-ab1f ab27 ab2f
ab6c-ab6f abee-abef abfa-abff d7a4-d7af d7c7-d7ca d7fc-d7ff e000-f8ff fa6e-fa6f fada-faff
fb07-fb12 fb18-fb1c fb37 fb3d fb3f fb42 fb45 fbc3-fbd2 fd90-fd91 fdc8-fdce fdd0-fdef fe1a-fe1f
fe53 fe67 fe6c-fe6f fe75 fefd-ff00 ffbf-ffc1 ffc8-ffc9 ffd0-ffd1 ffd8-ffd9 ffdd-ffdf ffe7
ffef-fffb fffe-ffff 1000c 10027 1003b 1003e 1004e-1004f 1005e-1007f 100fb-100ff 10103-10106
10134-10136 1018f 1019d-1019f 101a1-101cf 101fe-1027f 1029d-1029f 102d1-102df 102fc-102ff
10324-1032c 1034b-1034f 1037b-1037f 1039e 103c4-103c7 103d6-103ff 1049e-1049f 104aa-104af
104d4-104d7 104fc-104ff 10528-1052f 10564-1056e 1057b 1058b 10593 10596 105a2 105b2 105ba
105bd-105ff 10737-1073f 10756-1075f 10768-1077f 10786 107b1 107bb-107ff 10806-10807 10809 10836
10839-1083b 1083d-1083e 10856 1089f-108a6 108b0-108df 108f3 108f6-108fa 1091c-1091e 1093a-1093e
10940-1097f 109b8-109bb 109d0-109d1 10a04 10a07-10a0b 10a14 10a18 10a36-10a37 10a3b-10a3e
10a49-10a4f 10a59-10a5f 10aa0-10abf 10ae7-10aea 10af7-10aff 10b36-10b38 10b56-10b57 10b73-10b77
10b92-10b98 10b9d-10ba8 10bb0-10bff 10c49-10c7f 10cb3-10cbf 10cf3-10cf9 10d28-10d2f 10d3a-10e5f
10e7f 10eaa 10eae-10eaf 10eb2-10eff 10f28-10f2f 10f5a-10f6f 10f8a-10faf 10fcc-10fdf 10ff7-10fff
1104e-11051 11076-1107e 110bd 110c3-110cf 110e9-110ef 110fa-110ff 11135 11148-1114f 11177-1117f
111e0 111f5-111ff 11212 1123f-1127f 11287 11289 1128e 1129e 112aa-112af 112eb-112ef 112fa-112ff
11304 1130d-1130e 11311-11312 11329 11331 11334 1133a 11345-11346 11349-1134a 1134e-1134f
11351-11356 11358-1135c 11364-11365 1136d-1136f 11375-113ff 1145c 11462-1147f 114c8-114cf
114da-1157f 115b6-115b7 115de-115ff 11645-1164f 1165a-1165f 1166d-1167f 116ba-116bf 116ca-116ff
1171b-1171c 1172c-1172f 11747-117ff 1183c-1189f 118f3-118fe 11907-11908 1190a-1190b 11914 11917
11936 11939-1193a 11947-1194f 1195a-1199f 119a8-119a9 119d8-119d9 119e5-119ff 11a48-11a4f
11aa3-11aaf 11af9-11bff 11c09 11c37 11c46-11c4f 11c6d-11c6f 11c90-11c91 11ca8 11cb7-11cff 11d07
11d0a 11d37-11d39 11d3b 11d3e 11d48-11d4f 11d5a-11d5f 11d66 11d69 11d8f 11d92 11d99-11d9f
11daa-11edf 11ef9-11faf 11fb1-11fbf 11ff2-11ffe 1239a-123ff 1246f 12475-1247f 12544-12f8f
12ff3-12fff 1342f-143ff 14647-167ff 16a39-16a3f 16a5f 16a6a-16a6d 16abf 16aca-16acf 16aee-16aef
16af6-16aff 16b46-16b4f 16b5a 16b62 16b78-16b7c 16b90-16e3f 16e9b-16eff 16f4b-16f4e 16f88-16f8e
16fa0-16fdf 16fe5-16fef 16ff2-16fff 187f8-187ff 18cd6-18cff 18d09-1afef 1aff4 1affc 1afff
1b123-1b14f 1b153-1b163 1b168-1b16f 1b2fc-1bbff 1bc6b-1bc6f 1bc7d-1bc7f 1bc89-1bc8f 1bc9a-1bc9b
1bca0-1ceff 1cf2e-1cf2f 1cf47-1cf4f 1cfc4-1cfff 1d0f6-1d0ff 1d127-1d128 1d173-1d17a 1d1eb-1d1ff
1d246-1d2df 1d2f4-1d2ff 1d357-1d35f 1d379-1d3ff 1d455 1d49d 1d4a0-1d4a1 1d4a3-1d4a4 1d4a7-1d4a8
1d4ad 1d4ba 1d4bc 1d4c4 1d506 1d50b-1d50c 1d515 1d51d 1d53a 1d53f 1d545 1d547-1d549 1d551
1d6a6-1d6a7 1d7cc-1d7cd 1da8c-1da9a 1daa0 1dab0-1deff 1df1f-1dfff 1e007 1e019-1e01a 1e022 1e025
1e02b-1e0ff 1e12d-1e12f 1e13e-1e13f 1e14a-1e14d 1e150-1e28f 1e2af-1e2bf 1e2fa-1e2fe 1e300-1e7df
1e7e7 1e7ec 1e7ef 1e7ff 1e8c5-1e8c6 1e8d7-1e8ff 1e94c-1e94f 1e95a-1e95d 1e960-1ec70 1ecb5-1ed00
1ed3e-1edff 1ee04 1ee20 1ee23 1ee25-1ee26 1ee28 1ee33 1ee38 1ee3a 1ee3c-1ee41 1ee43-1ee46 1ee48
1ee4a 1ee4c 1ee50 1ee53 1ee55-1ee56 1ee58 1ee5a 1ee5c 1ee5e 1ee60 1ee63 1ee65-1ee66 1ee6b 1ee73
1ee78 1ee7d 1ee7f 1ee8a 1ee9c-1eea0 1eea4 1eeaa 1eebc-1eeef 1eef2-1efff 1f02c-1f02f 1f094-1f09f
1f0af-1f0b0 1f0c0 1f0d0 1f0f6-1f0ff 1f1ae-1f1e5 1f203-1f20f 1f23c-1f23f 1f249-1f24f 1f252-1f25f
1f266-1f2ff 1f6d8-1f6dc 1f6ed-1f6ef 1f6fd-1f6ff 1f774-1f77f 1f7d9-1f7df 1f7ec-1f7ef 1f7f1-1f7ff
1f80c-1f80f 1f848-1f84f 1f85a-1f85f 1f888-1f88f 1f8ae-1f8af 1f8b2-1f8ff 1fa54-1fa5f 1fa6e-1fa6f
1fa75-1fa77 1fa7d-1fa7f 1fa87-1fa8f 1faad-1faaf 1fabb-1fabf 1fac6-1facf 1fada-1fadf 1fae8-1faef
1faf7-1faff 1fb93 1fbcb-1fbef 1fbfa-1ffff 2a6e0-2a6ff 2b739-2b73f 2b81e-2b81f 2cea2-2ceaf
2ebe1-2f7ff 2fa1e-2ffff 3134b-e00ff e01f0-10ffff"

/-- Punctuation marks and symbols beyond ASCII. -/
def punctuationTable : String :=
"a1-a9 ab-ac ae-b1 b4 b6-b8 bb bf d7 f7 2c2-2c5 2d2-2df 2e5-2eb 2ed 2ef-2ff 375 37e 384-385 387
3f6 482 55a-55f 589-58a 58d-58f 5be 5c0 5c3 5c6 5f3-5f4 606-60f 61b 61d-61f 66a-66d 6d4 6de 6e9
6fd-6fe 700-70d 7f6-7f9 7fe-7ff 830-83e 85e 888 964-965 970 9f2-9f3 9fa-9fb 9fd a76 af0-af1 b70
bf3-bfa c77 c7f c84 d4f d79 df4 e3f e4f e5a-e5b f01-f17 f1a-f1f f34 f36 f38 f3a-f3d f85 fbe-fc5
fc7-fcc fce-fda 104a-104f 109e-109f 10fb 1360-1368 1390-1399 1400 166d-166e 169b-169c 16eb-16ed
1735-1736 17d4-17d6 17d8-17db 1800-180a 1940 1944-1945 19de-19ff 1a1e-1a1f 1aa0-1aa6 1aa8-1aad
1b5a-1b6a 1b74-1b7e 1bfc-1bff 1c3b-1c3f 1c7e-1c7f 1cc0-1cc7 1cd3 1fbd 1fbf-1fc1 1fcd-1fcf
1fdd-1fdf 1fed-1fef 1ffd-1ffe 2010-2027 2030-205e 207a-207e 208a-208e 20a0-20c0 2100-2101
2103-2106 2108-2109 2114 2116-2118 211e-2123 2125 2127 2129 212e 213a-213b 2140-2144 214a-214d
214f 218a-218b 2190-2426 2440-244a 249c-24e9 2500-2775 2794-2b73 2b76-2b95 2b97-2bff 2ce5-2cea
2cf9-2cfc 2cfe-2cff 2d70 2e00-2e2e 2e30-2e5d 2e80-2e99 2e9b-2ef3 2f00-2fd5 2ff0-2ffb 3001-3004
3008-3020 3030 3036-3037 303d-303f 309b-309c 30a0 30fb 3190-3191 3196-319f 31c0-31e3 3200-321e
322a-3247 3250 3260-327f 328a-32b0 32c0-33ff 4dc0-4dff a490-a4c6 a4fe-a4ff a60d-a60f a673 a67e
a6f2-a6f7 a700-a716 a720-a721 a789-a78a a828-a82b a836-a839 a874-a877 a8ce-a8cf a8f8-a8fa a8fc
a92e-a92f a95f a9c1-a9cd a9de-a9df aa5c-aa5f aa77-aa79 aade-aadf aaf0-aaf1 ab5b ab6a-ab6b abeb
fb29 fbb2-fbc2 fd3e-fd4f fdcf fdfc-fdff fe10-fe19 fe30-fe52 fe54-fe66 fe68-fe6b ff01-ff0f
ff1a-ff20 ff3b-ff40 ff5b-ff65 ffe0-ffe6 ffe8-ffee fffc-fffd 10100-10102 10137-1013f 10179-10189
1018c-1018e 10190-1019c 101a0 101d0-101fc 1039f 103d0 1056f 10857 10877-10878 1091f 1093f
10a50-10a58 10a7f 10ac8 10af0-10af6 10b39-10b3f 10b99-10b9c 10ead 10f55-10f59 10f86-10f89
11047-1104d 110bb-110bc 110be-110c1 11140-11143 11174-11175 111c5-111c8 111cd 111db 111dd-111df
11238-1123d 112a9 1144b-1144f 1145a-1145b 1145d 114c6 115c1-115d7 11641-11643 11660-1166c 116b9
1173c-1173f 1183b 11944-11946 119e2 11a3f-11a46 11a9a-11a9c 11a9e-11aa2 11c41-11c45 11c70-11c71
11ef7-11ef8 11fd5-11ff1 11fff 12470-12474 12ff1-12ff2 16a6e-16a6f 16af5 16b37-16b3f 16b44-16b45
16e97-16e9a 16fe2 1bc9c 1bc9f 1cf50-1cfc3 1d000-1d0f5 1d100-1d126 1d129-1d164 1d16a-1d16c
1d183-1d184 1d18c-1d1a9 1d1ae-1d1ea 1d200-1d241 1d245 1d300-1d356 1d6c1 1d6db 1d6fb 1d715 1d735
1d74f 1d76f 1d789 1d7a9 1d7c3 1d800-1d9ff 1da37-1da3a 1da6d-1da74 1da76-1da83 1da85-1da8b 1e14f
1e2ff 1e95e-1e95f 1ecac 1ecb0 1ed2e 1eef0-1eef1 1f000-1f02b 1f030-1f093 1f0a0-1f0ae 1f0b1-1f0bf
1f0c1-1f0cf 1f0d1-1f0f5 1f10d-1f1ad 1f1e6-1f202 1f210-1f23b 1f240-1f248 1f250-1f251 1f260-1f265
1f300-1f6d7 1f6dd-1f6ec 1f6f0-1f6fc 1f700-1f773 1f780-1f7d8 1f7e0-1f7eb 1f7f0 1f800-1f80b
1f810-1f847 1f850-1f859 1f860-1f887 1f890-1f8ad 1f8b0-1f8b1 1f900-1fa53 1fa60-1fa6d 1fa70-1fa74
1fa78-1fa7c 1fa80-1fa86 1fa90-1faac 1fab0-1faba 1fac0-1fac5 1fad0-1fad9 1fae0-1fae7 1faf0-1faf6
1fb00-1fb92 1fb94-1fbca"

/-- Letters and digits beyond ASCII. -/
def alphanumericTable : String :=
"aa b2-b3 b5 b9-ba bc-be c0-d6 d8-f6 f8-2c1 2c6-2d1 2e0-2e4 2ec 2ee 370-374 376-377 37a-37d 37f 386
388-38a 38c 38e-3a1 3a3-3f5 3f7-481 48a-52f 531-556 559 560-588 5d0-5ea 5ef-5f2 620-64a 660-669
66e-66f 671-6d3 6d5 6e5-6e6 6ee-6fc 6ff 710 712-72f 74d-7a5 7b1 7c0-7ea 7f4-7f5 7fa 800-815 81a
824 828 840-858 860-86a 870-887 889-88e 8a0-8c9 904-939 93d 950 958-961 966-96f 971-980 985-98c
98f-990 993-9a8 9aa-9b0 9b2 9b6-9b9 9bd 9ce 9dc-9dd 9df-9e1 9e6-9f1 9f4-9f9 9fc a05-a0a a0f-a10
a13-a28 a2a-a30 a32-a33 a35-a36 a38-a39 a59-a5c a5e a66-a6f a72-a74 a85-a8d a8f-a91 a93-aa8
aaa-ab0 ab2-ab3 ab5-ab9 abd ad0 ae0-ae1 ae6-aef af9 b05-b0c b0f-b10 b13-b28 b2a-b30 b32-b33
b35-b39 b3d b5c-b5d b5f-b61 b66-b6f b71-b77 b83 b85-b8a b8e-b90 b92-b95 b99-b9a b9c b9e-b9f
ba3-ba4 ba8-baa bae-bb9 bd0 be6-bf2 c05-c0c c0e-c10 c12-c28 c2a-c39 c3d c58-c5a c5d c60-c61
c66-c6f c78-c7e c80 c85-c8c c8e-c90 c92-ca8 caa-cb3 cb5-cb9 cbd cdd-cde ce0-ce1 ce6-cef cf1-cf2
d04-d0c d0e-d10 d12-d3a d3d d4e d54-d56 d58-d61 d66-d78 d7a-d7f d85-d96 d9a-db1 db3-dbb dbd
dc0-dc6 de6-def e01-e30 e32-e33 e40-e46 e50-e59 e81-e82 e84 e86-e8a e8c-ea3 ea5 ea7-eb0 eb2-eb3
ebd ec0-ec4 ec6 ed0-ed9 edc-edf f00 f20-f33 f40-f47 f49-f6c f88-f8c 1000-102a 103f-1049 1050-1055
105a-105d 1061 1065-1066 106e-1070 1075-1081 108e 1090-1099 10a0-10c5 10c7 10cd 10d0-10fa
10fc-1248 124a-124d 1250-1256 1258 125a-125d 1260-1288 128a-128d 1290-12b0 12b2-12b5 12b8-12be
12c0 12c2-12c5 12c8-12d6 12d8-1310 1312-1315 1318-135a 1369-137c 1380-138f 13a0-13f5 13f8-13fd
1401-166c 166f-167f 1681-169a 16a0-16ea 16ee-16f8 1700-1711 171f-1731 1740-1751 1760-176c
176e-1770 1780-17b3 17d7 17dc 17e0-17e9 17f0-17f9 1810-1819 1820-1878 1880-1884 1887-18a8 18aa
18b0-18f5 1900-191e 1946-196d 1970-1974 1980-19ab 19b0-19c9 19d0-19da 1a00-1a16 1a20-1a54
1a80-1a89 1a90-1a99 1aa7 1b05-1b33 1b45-1b4c 1b50-1b59 1b83-1ba0 1bae-1be5 1c00-1c23 1c40-1c49
1c4d-1c7d 1c80-1c88 1c90-1cba 1cbd-1cbf 1ce9-1cec 1cee-1cf3 1cf5-1cf6 1cfa 1d00-1dbf 1e00-1f15
1f18-1f1d 1f20-1f45 1f48-1f4d 1f50-1f57 1f59 1f5b 1f5d 1f5f-1f7d 1f80-1fb4 1fb6-1fbc 1fbe
1fc2-1fc4 1fc6-1fcc 1fd0-1fd3 1fd6-1fdb 1fe0-1fec 1ff2-1ff4 1ff6-1ffc 2070-2071 2074-2079
207f-2089 2090-209c 2102 2107 210a-2113 2115 2119-211d 2124 2126 2128 212a-212d 212f-2139
213c-213f 2145-2149 214e 2150-2189 2460-249b 24ea-24ff 2776-2793 2c00-2ce4 2ceb-2cee 2cf2-2cf3
2cfd 2d00-2d25 2d27 2d2d 2d30-2d67 2d6f 2d80-2d96 2da0-2da6 2da8-2dae 2db0-2db6 2db8-2dbe
2dc0-2dc6 2dc8-2dce 2dd0-2dd6 2dd8-2dde 2e2f 3005-3007 3021-3029 3031-3035 3038-303c 3041-3096
309d-309f 30a1-30fa 30fc-30ff 3105-312f 3131-318e 3192-3195 31a0-31bf 31f0-31ff 3220-3229
3248-324f 3251-325f 3280-3289 32b1-32bf 3400-4dbf 4e00-a48c a4d0-a4fd a500-a60c a610-a62b
a640-a66e a67f-a69d a6a0-a6ef a717-a71f a722-a788 a78b-a7ca a7d0-a7d1 a7d3 a7d5-a7d9 a7f2-a801
a803-a805 a807-a80a a80c-a822 a830-a835 a840-a873 a882-a8b3 a8d0-a8d9 a8f2-a8f7 a8fb a8fd-a8fe
a900-a925 a930-a946 a960-a97c a984-a9b2 a9cf-a9d9 a9e0-a9e4 a9e6-a9fe aa00-aa28 aa40-aa42
aa44-aa4b aa50-aa59 aa60-aa76 aa7a aa7e-aaaf aab1 aab5-aab6 aab9-aabd aac0 aac2 aadb-aadd
aae0-aaea aaf2-aaf4 ab01-ab06 ab09-ab0e ab11-ab16 ab20-ab26 ab28-ab2e ab30-ab5a ab5c-ab69
ab70-abe2 abf0-abf9 ac00-d7a3 d7b0-d7c6 d7cb-d7fb f900-fa6d fa70-fad9 fb00-fb06 fb13-fb17 fb1d
fb1f-fb28 fb2a-fb36 fb38-fb3c fb3e fb40-fb41 fb43-fb44 fb46-fbb1 fbd3-fd3d fd50-fd8f fd92-fdc7
fdf0-fdfb fe70-fe74 fe76-fefc ff10-ff19 ff21-ff3a ff41-ff5a ff66-ffbe ffc2-ffc7 ffca-ffcf
ffd2-ffd7 ffda-ffdc 10000-1000b 1000d-10026 10028-1003a 1003c-1003d 1003f-1004d 10050-1005d
10080-100fa 10107-10133 10140-10178 1018a-1018b 10280-1029c 102a0-102d0 102e1-102fb 10300-10323
1032d-1034a 10350-10375 10380-1039d 103a0-103c3 103c8-103cf 103d1-103d5 10400-1049d 104a0-104a9
104b0-104d3 104d8-104fb 10500-10527 10530-10563 10570-1057a 1057c-1058a 1058c-10592 10594-10595
10597-105a1 105a3-105b1 105b3-105b9 105bb-105bc 10600-10736 10740-10755 10760-10767 10780-10785
10787-107b0 107b2-107ba 10800-10805 10808 1080a-10835 10837-10838 1083c 1083f-10855 10858-10876
10879-1089e 108a7-108af 108e0-108f2 108f4-108f5 108fb-1091b 10920-10939 10980-109b7 109bc-109cf
109d2-10a00 10a10-10a13 10a15-10a17 10a19-10a35 10a40-10a48 10a60-10a7e 10a80-10a9f 10ac0-10ac7
10ac9-10ae4 10aeb-10aef 10b00-10b35 10b40-10b55 10b58-10b72 10b78-10b91 10ba9-10baf 10c00-10c48
10c80-10cb2 10cc0-10cf2 10cfa-10d23 10d30-10d39 10e60-10e7e 10e80-10ea9 10eb0-10eb1 10f00-10f27
10f30-10f45 10f51-10f54 10f70-10f81 10fb0-10fcb 10fe0-10ff6 11003-11037 11052-1106f 11071-11072
11075 11083-110af 110d0-110e8 110f0-110f9 11103-11126 11136-1113f 11144 11147 11150-11172 11176
11183-111b2 111c1-111c4 111d0-111da 111dc 111e1-111f4 11200-11211 11213-1122b 11280-11286 11288
1128a-1128d 1128f-1129d 1129f-112a8 112b0-112de 112f0-112f9 11305-1130c 1130f-11310 11313-11328
1132a-11330 11332-11333 11335-11339 1133d 11350 1135d-11361 11400-11434 11447-1144a 11450-11459
1145f-11461 11480-114af 114c4-114c5 114c7 114d0-114d9 11580-115ae 115d8-115db 11600-1162f 11644
11650-11659 11680-116aa 116b8 116c0-116c9 11700-1171a 11730-1173b 11740-11746 11800-1182b
118a0-118f2 118ff-11906 11909 1190c-11913 11915-11916 11918-1192f 1193f 11941 11950-11959
119a0-119a7 119aa-119d0 119e1 119e3 11a00 11a0b-11a32 11a3a 11a50 11a5c-11a89 11a9d 11ab0-11af8
11c00-11c08 11c0a-11c2e 11c40 11c50-11c6c 11c72-11c8f 11d00-11d06 11d08-11d09 11d0b-11d30 11d46
11d50-11d59 11d60-11d65 11d67-11d68 11d6a-11d89 11d98 11da0-11da9 11ee0-11ef2 11fb0 11fc0-11fd4
12000-12399 12400-1246e 12480-12543 12f90-12ff0 13000-1342e 14400-14646 16800-16a38 16a40-16a5e
16a60-16a69 16a70-16abe 16ac0-16ac9 16ad0-16aed 16b00-16b2f 16b40-16b43 16b50-16b59 16b5b-16b61
16b63-16b77 16b7d-16b8f 16e40-16e96 16f00-16f4a 16f50 16f93-16f9f 16fe0-16fe1 16fe3 17000-187f7
18800-18cd5 18d00-18d08 1aff0-1aff3 1aff5-1affb 1affd-1affe 1b000-1b122 1b150-1b152 1b164-1b167
1b170-1b2fb 1bc00-1bc6a 1bc70-1bc7c 1bc80-1bc88 1bc90-1bc99 1d2e0-1d2f3 1d360-1d378 1d400-1d454
1d456-1d49c 1d49e-1d49f 1d4a2 1d4a5-1d4a6 1d4a9-1d4ac 1d4ae-1d4b9 1d4bb 1d4bd-1d4c3 1d4c5-1d505
1d507-1d50a 1d50d-1d514 1d516-1d51c 1d51e-1d539 1d53b-1d53e 1d540-1d544 1d546 1d54a-1d550
1d552-1d6a5 1d6a8-1d6c0 1d6c2-1d6da 1d6dc-1d6fa 1d6fc-1d714 1d716-1d734 1d736-1d74e 1d750-1d76e
1d770-1d788 1d78a-1d7a8 1d7aa-1d7c2 1d7c4-1d7cb 1d7ce-1d7ff 1df00-1df1e 1e100-1e12c 1e137-1e13d
1e140-1e149 1e14e 1e290-1e2ad 1e2c0-1e2eb 1e2f0-1e2f9 1e7e0-1e7e6 1e7e8-1e7eb 1e7ed-1e7ee
1e7f0-1e7fe 1e800-1e8c4 1e8c7-1e8cf 1e900-1e943 1e94b 1e950-1e959 1ec71-1ecab 1ecad-1ecaf
1ecb1-1ecb4 1ed01-1ed2d 1ed2f-1ed3d 1ee00-1ee03 1ee05-1ee1f 1ee21-1ee22 1ee24 1ee27 1ee29-1ee32
1ee34-1ee37 1ee39 1ee3b 1ee42 1ee47 1ee49 1ee4b 1ee4d-1ee4f 1ee51-1ee52 1ee54 1ee57 1ee59 1ee5b
1ee5d 1ee5f 1ee61-1ee62 1ee64 1ee67-1ee6a 1ee6c-1ee72 1ee74-1ee77 1ee79-1ee7c 1ee7e 1ee80-1ee89
1ee8b-1ee9b 1eea1-1eea3 1eea5-1eea9 1eeab-1eebb 1f100-1f10c 1fbf0-1fbf9 20000-2a6df 2a700-2b738
2b740-2b81d 2b820-2cea1 2ceb0-2ebe0 2f800-2fa1d 30000-3134a"

/-- Decimal digits beyond ASCII. -/
def decimalTable : String :=
"660-669 6f0-6f9 7c0-7c9 966-96f 9e6-9ef a66-a6f ae6-aef b66-b6f be6-bef c66-c6f ce6-cef d66-d6f
de6-def e50-e59 ed0-ed9 f20-f29 1040-1049 1090-1099 17e0-17e9 1810-1819 1946-194f 19d0-19d9
1a80-1a89 1a90-1a99 1b50-1b59 1bb0-1bb9 1c40-1c49 1c50-1c59 a620-a629 a8d0-a8d9 a900-a909
a9d0-a9d9 a9f0-a9f9 aa50-aa59 abf0-abf9 ff10-ff19 104a0-104a9 10d30-10d39 11066-1106f 110f0-110f9
11136-1113f 111d0-111d9 112f0-112f9 11450-11459 114d0-114d9 11650-11659 116c0-116c9 11730-11739
118e0-118e9 11950-11959 11c50-11c59 11d50-11d59 11da0-11da9 16a60-16a69 16ac0-16ac9 16b50-16b59
1d7ce-1d7ff 1e140-1e149 1e2f0-1e2f9 1e950-1e959 1fbf0-1fbf9"

/-- Letters that have a case, but for those that are passed over. -/
def casedTable : String :=
"41-5a 61-7a aa b5 ba c0-d6 d8-f6 f8-1ba 1bc-1bf 1c4-293 295-2af 370-373 376-377 37b-37d 37f 386
388-38a 38c 38e-3a1 3a3-3f5 3f7-481 48a-52f 531-556 560-588 10a0-10c5 10c7 10cd 10d0-10fa 10fd-10ff
13a0-13f5 13f8-13fd 1c80-1c88 1c90-1cba 1cbd-1cbf 1d00-1d2b 1d6b-1d77 1d79-1d9a 1e00-1f15 1f18-1f1d
1f20-1f45 1f48-1f4d 1f50-1f57 1f59 1f5b 1f5d 1f5f-1f7d 1f80-1fb4 1fb6-1fbc 1fbe 1fc2-1fc4 1fc6-1fcc
1fd0-1fd3 1fd6-1fdb 1fe0-1fec 1ff2-1ff4 1ff6-1ffc 2102 2107 210a-2113 2115 2119-211d 2124 2126 2128
212a-212d 212f-2134 2139 213c-213f 2145-2149 214e 2160-217f 2183-2184 24b6-24e9 2c00-2c7b 2c7e-2ce4
2ceb-2cee 2cf2-2cf3 2d00-2d25 2d27 2d2d a640-a66d a680-a69b a722-a76f a771-a787 a78b-a78e a790-a7ca
a7d0-a7d1 a7d3 a7d5-a7d9 a7f5-a7f6 a7fa ab30-ab5a ab60-ab68 ab70-abbf fb00-fb06 fb13-fb17 ff21-ff3a
ff41-ff5a 10400-1044f 104b0-104d3 104d8-104fb 10570-1057a 1057c-1058a 1058c-10592 10594-10595
10597-105a1 105a3-105b1 105b3-105b9 105bb-105bc 10c80-10cb2 10cc0-10cf2 118a0-118df 16e40-16e7f
1d400-1d454 1d456-1d49c 1d49e-1d49f 1d4a2 1d4a5-1d4a6 1d4a9-1d4ac 1d4ae-1d4b9 1d4bb 1d4bd-1d4c3
1d4c5-1d505 1d507-1d50a 1d50d-1d514 1d516-1d51c 1d51e-1d539 1d53b-1d53e 1d540-1d544 1d546
1d54a-1d550 1d552-1d6a5 1d6a8-1d6c0 1d6c2-1d6da 1d6dc-1d6fa 1d6fc-1d714 1d716-1d734 1d736-1d74e
1d750-1d76e 1d770-1d788 1d78a-1d7a8 1d7aa-1d7c2 1d7c4-1d7cb 1df00-1df09 1df0b-1df1e 1e900-1e943
1f130-1f149 1f150-1f169 1f170-1f189"

/-- Characters that are passed over in a word: apostrophes, points, marks that join, and the like. -/
def passedOverTable : String :=
"27 2e 3a 5e 60 a8 ad af b4 b7-b8 2b0-36f 374-375 37a 384-385 387 483-489 559 55f 591-5bd 5bf
5c1-5c2 5c4-5c5 5c7 5f4 600-605 610-61a 61c 640 64b-65f 670 6d6-6dd 6df-6e8 6ea-6ed 70f 711 730-74a
7a6-7b0 7eb-7f5 7fa 7fd 816-82d 859-85b 888 890-891 898-89f 8c9-902 93a 93c 941-948 94d 951-957
962-963 971 981 9bc 9c1-9c4 9cd 9e2-9e3 9fe a01-a02 a3c a41-a42 a47-a48 a4b-a4d a51 a70-a71 a75
a81-a82 abc ac1-ac5 ac7-ac8 acd ae2-ae3 afa-aff b01 b3c b3f b41-b44 b4d b55-b56 b62-b63 b82 bc0 bcd
c00 c04 c3c c3e-c40 c46-c48 c4a-c4d c55-c56 c62-c63 c81 cbc cbf cc6 ccc-ccd ce2-ce3 d00-d01 d3b-d3c
d41-d44 d4d d62-d63 d81 dca dd2-dd4 dd6 e31 e34-e3a e46-e4e eb1 eb4-ebc ec6 ec8-ecd f18-f19 f35 f37
f39 f71-f7e f80-f84 f86-f87 f8d-f97 f99-fbc fc6 102d-1030 1032-1037 1039-103a 103d-103e 1058-1059
105e-1060 1071-1074 1082 1085-1086 108d 109d 10fc 135d-135f 1712-1714 1732-1733 1752-1753 1772-1773
17b4-17b5 17b7-17bd 17c6 17c9-17d3 17d7 17dd 180b-180f 1843 1885-1886 18a9 1920-1922 1927-1928 1932
1939-193b 1a17-1a18 1a1b 1a56 1a58-1a5e 1a60 1a62 1a65-1a6c 1a73-1a7c 1a7f 1aa7 1ab0-1ace 1b00-1b03
1b34 1b36-1b3a 1b3c 1b42 1b6b-1b73 1b80-1b81 1ba2-1ba5 1ba8-1ba9 1bab-1bad 1be6 1be8-1be9 1bed
1bef-1bf1 1c2c-1c33 1c36-1c37 1c78-1c7d 1cd0-1cd2 1cd4-1ce0 1ce2-1ce8 1ced 1cf4 1cf8-1cf9 1d2c-1d6a
1d78 1d9b-1dff 1fbd 1fbf-1fc1 1fcd-1fcf 1fdd-1fdf 1fed-1fef 1ffd-1ffe 200b-200f 2018-2019 2024 2027
202a-202e 2060-2064 2066-206f 2071 207f 2090-209c 20d0-20f0 2c7c-2c7d 2cef-2cf1 2d6f 2d7f 2de0-2dff
2e2f 3005 302a-302d 3031-3035 303b 3099-309e 30fc-30fe a015 a4f8-a4fd a60c a66f-a672 a674-a67d a67f
a69c-a69f a6f0-a6f1 a700-a721 a770 a788-a78a a7f2-a7f4 a7f8-a7f9 a802 a806 a80b a825-a826 a82c
a8c4-a8c5 a8e0-a8f1 a8ff a926-a92d a947-a951 a980-a982 a9b3 a9b6-a9b9 a9bc-a9bd a9cf a9e5-a9e6
aa29-aa2e aa31-aa32 aa35-aa36 aa43 aa4c aa70 aa7c aab0 aab2-aab4 aab7-aab8 aabe-aabf aac1 aadd
aaec-aaed aaf3-aaf4 aaf6 ab5b-ab5f ab69-ab6b abe5 abe8 abed fb1e fbb2-fbc2 fe00-fe0f fe13 fe20-fe2f
fe52 fe55 feff ff07 ff0e ff1a ff3e ff40 ff70 ff9e-ff9f ffe3 fff9-fffb 101fd 102e0 10376-1037a
10780-10785 10787-107b0 107b2-107ba 10a01-10a03 10a05-10a06 10a0c-10a0f 10a38-10a3a 10a3f
10ae5-10ae6 10d24-10d27 10eab-10eac 10f46-10f50 10f82-10f85 11001 11038-11046 11070 11073-11074
1107f-11081 110b3-110b6 110b9-110ba 110bd 110c2 110cd 11100-11102 11127-1112b 1112d-11134 11173
11180-11181 111b6-111be 111c9-111cc 111cf 1122f-11231 11234 11236-11237 1123e 112df 112e3-112ea
11300-11301 1133b-1133c 11340 11366-1136c 11370-11374 11438-1143f 11442-11444 11446 1145e
114b3-114b8 114ba 114bf-114c0 114c2-114c3 115b2-115b5 115bc-115bd 115bf-115c0 115dc-115dd
11633-1163a 1163d 1163f-11640 116ab 116ad 116b0-116b5 116b7 1171d-1171f 11722-11725 11727-1172b
1182f-11837 11839-1183a 1193b-1193c 1193e 11943 119d4-119d7 119da-119db 119e0 11a01-11a0a
11a33-11a38 11a3b-11a3e 11a47 11a51-11a56 11a59-11a5b 11a8a-11a96 11a98-11a99 11c30-11c36
11c38-11c3d 11c3f 11c92-11ca7 11caa-11cb0 11cb2-11cb3 11cb5-11cb6 11d31-11d36 11d3a 11d3c-11d3d
11d3f-11d45 11d47 11d90-11d91 11d95 11d97 11ef3-11ef4 13430-13438 16af0-16af4 16b30-16b36
16b40-16b43 16f4f 16f8f-16f9f 16fe0-16fe1 16fe3-16fe4 1aff0-1aff3 1aff5-1affb 1affd-1affe
1bc9d-1bc9e 1bca0-1bca3 1cf00-1cf2d 1cf30-1cf46 1d167-1d169 1d173-1d182 1d185-1d18b 1d1aa-1d1ad
1d242-1d244 1da00-1da36 1da3b-1da6c 1da75 1da84 1da9b-1da9f 1daa1-1daaf 1e000-1e006 1e008-1e018
1e01b-1e021 1e023-1e024 1e026-1e02a 1e130-1e13d 1e2ae 1e2ec-1e2ef 1e8d0-1e8d6 1e944-1e94b
1f3fb-1f3ff e0001 e0020-e007f e0100-e01ef"

/-- Runs whose lower case form is one character: `first.last.step.target`. -/
def lowerTable : String :=
"41.5a.1.61 c0.d6.1.e0 d8.de.1.f8 100.12e.2.101 132.136.2.133 139.147.2.13a 14a.176.2.14b
178.178.1.ff 179.17d.2.17a 181.181.1.253 182.184.2.183 186.186.1.254 187.187.1.188 189.18a.1.256
18b.18b.1.18c 18e.18e.1.1dd 18f.18f.1.259 190.190.1.25b 191.191.1.192 193.193.1.260
194.194.1.263 196.196.1.269 197.197.1.268 198.198.1.199 19c.19c.1.26f 19d.19d.1.272
19f.19f.1.275 1a0.1a4.2.1a1 1a6.1a6.1.280 1a7.1a7.1.1a8 1a9.1a9.1.283 1ac.1ac.1.1ad
1ae.1ae.1.288 1af.1af.1.1b0 1b1.1b2.1.28a 1b3.1b5.2.1b4 1b7.1b7.1.292 1b8.1b8.1.1b9
1bc.1bc.1.1bd 1c4.1c4.1.1c6 1c5.1c5.1.1c6 1c7.1c7.1.1c9 1c8.1c8.1.1c9 1ca.1ca.1.1cc
1cb.1db.2.1cc 1de.1ee.2.1df 1f1.1f1.1.1f3 1f2.1f4.2.1f3 1f6.1f6.1.195 1f7.1f7.1.1bf
1f8.21e.2.1f9 220.220.1.19e 222.232.2.223 23a.23a.1.2c65 23b.23b.1.23c 23d.23d.1.19a
23e.23e.1.2c66 241.241.1.242 243.243.1.180 244.244.1.289 245.245.1.28c 246.24e.2.247
370.372.2.371 376.376.1.377 37f.37f.1.3f3 386.386.1.3ac 388.38a.1.3ad 38c.38c.1.3cc
38e.38f.1.3cd 391.3a1.1.3b1 3a3.3ab.1.3c3 3cf.3cf.1.3d7 3d8.3ee.2.3d9 3f4.3f4.1.3b8
3f7.3f7.1.3f8 3f9.3f9.1.3f2 3fa.3fa.1.3fb 3fd.3ff.1.37b 400.40f.1.450 410.42f.1.430
460.480.2.461 48a.4be.2.48b 4c0.4c0.1.4cf 4c1.4cd.2.4c2 4d0.52e.2.4d1 531.556.1.561
10a0.10c5.1.2d00 10c7.10c7.1.2d27 10cd.10cd.1.2d2d 13a0.13ef.1.ab70 13f0.13f5.1.13f8
1c90.1cba.1.10d0 1cbd.1cbf.1.10fd 1e00.1e94.2.1e01 1e9e.1e9e.1.df 1ea0.1efe.2.1ea1
1f08.1f0f.1.1f00 1f18.1f1d.1.1f10 1f28.1f2f.1.1f20 1f38.1f3f.1.1f30 1f48.1f4d.1.1f40
1f59.1f5f.2.1f51 1f68.1f6f.1.1f60 1f88.1f8f.1.1f80 1f98.1f9f.1.1f90 1fa8.1faf.1.1fa0
1fb8.1fb9.1.1fb0 1fba.1fbb.1.1f70 1fbc.1fbc.1.1fb3 1fc8.1fcb.1.1f72 1fcc.1fcc.1.1fc3
1fd8.1fd9.1.1fd0 1fda.1fdb.1.1f76 1fe8.1fe9.1.1fe0 1fea.1feb.1.1f7a 1fec.1fec.1.1fe5
1ff8.1ff9.1.1f78 1ffa.1ffb.1.1f7c 1ffc.1ffc.1.1ff3 2126.2126.1.3c9 212a.212a.1.6b 212b.212b.1.e5
2132.2132.1.214e 2160.216f.1.2170 2183.2183.1.2184 24b6.24cf.1.24d0 2c00.2c2f.1.2c30
2c60.2c60.1.2c61 2c62.2c62.1.26b 2c63.2c63.1.1d7d 2c64.2c64.1.27d 2c67.2c6b.2.2c68
2c6d.2c6d.1.251 2c6e.2c6e.1.271 2c6f.2c6f.1.250 2c70.2c70.1.252 2c72.2c72.1.2c73
2c75.2c75.1.2c76 2c7e.2c7f.1.23f 2c80.2ce2.2.2c81 2ceb.2ced.2.2cec 2cf2.2cf2.1.2cf3
a640.a66c.2.a641 a680.a69a.2.a681 a722.a72e.2.a723 a732.a76e.2.a733 a779.a77b.2.a77a
a77d.a77d.1.1d79 a77e.a786.2.a77f a78b.a78b.1.a78c a78d.a78d.1.265 a790.a792.2.a791
a796.a7a8.2.a797 a7aa.a7aa.1.266 a7ab.a7ab.1.25c a7ac.a7ac.1.261 a7ad.a7ad.1.26c a7ae.a7ae.1.26a
a7b0.a7b0.1.29e a7b1.a7b1.1.287 a7b2.a7b2.1.29d a7b3.a7b3.1.ab53 a7b4.a7c2.2.a7b5
a7c4.a7c4.1.a794 a7c5.a7c5.1.282 a7c6.a7c6.1.1d8e a7c7.a7c9.2.a7c8 a7d0.a7d0.1.a7d1
a7d6.a7d8.2.a7d7 a7f5.a7f5.1.a7f6 ff21.ff3a.1.ff41 10400.10427.1.10428 104b0.104d3.1.104d8
10570.1057a.1.10597 1057c.1058a.1.105a3 1058c.10592.1.105b3 10594.10595.1.105bb
10c80.10cb2.1.10cc0 118a0.118bf.1.118c0 16e40.16e5f.1.16e60 1e900.1e921.1.1e922"

/-- Characters whose lower case form has several characters. -/
def lowerLongTable : String :=
"130.69.307"

/-- Runs whose upper case form is one character: `first.last.step.target`. -/
def upperTable : String :=
"61.7a.1.41 b5.b5.1.39c e0.f6.1.c0 f8.fe.1.d8 ff.ff.1.178 101.12f.2.100 131.131.1.49
133.137.2.132 13a.148.2.139 14b.177.2.14a 17a.17e.2.179 17f.17f.1.53 180.180.1.243 183.185.2.182
188.188.1.187 18c.18c.1.18b 192.192.1.191 195.195.1.1f6 199.199.1.198 19a.19a.1.23d
19e.19e.1.220 1a1.1a5.2.1a0 1a8.1a8.1.1a7 1ad.1ad.1.1ac 1b0.1b0.1.1af 1b4.1b6.2.1b3
1b9.1b9.1.1b8 1bd.1bd.1.1bc 1bf.1bf.1.1f7 1c5.1c5.1.1c4 1c6.1c6.1.1c4 1c8.1c8.1.1c7
1c9.1c9.1.1c7 1cb.1cb.1.1ca 1cc.1cc.1.1ca 1ce.1dc.2.1cd 1dd.1dd.1.18e 1df.1ef.2.1de
1f2.1f2.1.1f1 1f3.1f3.1.1f1 1f5.1f5.1.1f4 1f9.21f.2.1f8 223.233.2.222 23c.23c.1.23b
23f.240.1.2c7e 242.242.1.241 247.24f.2.246 250.250.1.2c6f 251.251.1.2c6d 252.252.1.2c70
253.253.1.181 254.254.1.186 256.257.1.189 259.259.1.18f 25b.25b.1.190 25c.25c.1.a7ab
260.260.1.193 261.261.1.a7ac 263.263.1.194 265.265.1.a78d 266.266.1.a7aa 268.268.1.197
269.269.1.196 26a.26a.1.a7ae 26b.26b.1.2c62 26c.26c.1.a7ad 26f.26f.1.19c 271.271.1.2c6e
272.272.1.19d 275.275.1.19f 27d.27d.1.2c64 280.280.1.1a6 282.282.1.a7c5 283.283.1.1a9
287.287.1.a7b1 288.288.1.1ae 289.289.1.244 28a.28b.1.1b1 28c.28c.1.245 292.292.1.1b7
29d.29d.1.a7b2 29e.29e.1.a7b0 345.345.1.399 371.373.2.370 377.377.1.376 37b.37d.1.3fd
3ac.3ac.1.386 3ad.3af.1.388 3b1.3c1.1.391 3c2.3c2.1.3a3 3c3.3cb.1.3a3 3cc.3cc.1.38c
3cd.3ce.1.38e 3d0.3d0.1.392 3d1.3d1.1.398 3d5.3d5.1.3a6 3d6.3d6.1.3a0 3d7.3d7.1.3cf
3d9.3ef.2.3d8 3f0.3f0.1.39a 3f1.3f1.1.3a1 3f2.3f2.1.3f9 3f3.3f3.1.37f 3f5.3f5.1.395
3f8.3f8.1.3f7 3fb.3fb.1.3fa 430.44f.1.410 450.45f.1.400 461.481.2.460 48b.4bf.2.48a
4c2.4ce.2.4c1 4cf.4cf.1.4c0 4d1.52f.2.4d0 561.586.1.531 10d0.10fa.1.1c90 10fd.10ff.1.1cbd
13f8.13fd.1.13f0 1c80.1c80.1.412 1c81.1c81.1.414 1c82.1c82.1.41e 1c83.1c84.1.421 1c85.1c85.1.422
1c86.1c86.1.42a 1c87.1c87.1.462 1c88.1c88.1.a64a 1d79.1d79.1.a77d 1d7d.1d7d.1.2c63
1d8e.1d8e.1.a7c6 1e01.1e95.2.1e00 1e9b.1e9b.1.1e60 1ea1.1eff.2.1ea0 1f00.1f07.1.1f08
1f10.1f15.1.1f18 1f20.1f27.1.1f28 1f30.1f37.1.1f38 1f40.1f45.1.1f48 1f51.1f57.2.1f59
1f60.1f67.1.1f68 1f70.1f71.1.1fba 1f72.1f75.1.1fc8 1f76.1f77.1.1fda 1f78.1f79.1.1ff8
1f7a.1f7b.1.1fea 1f7c.1f7d.1.1ffa 1fb0.1fb1.1.1fb8 1fbe.1fbe.1.399 1fd0.1fd1.1.1fd8
1fe0.1fe1.1.1fe8 1fe5.1fe5.1.1fec 214e.214e.1.2132 2170.217f.1.2160 2184.2184.1.2183
24d0.24e9.1.24b6 2c30.2c5f.1.2c00 2c61.2c61.1.2c60 2c65.2c65.1.23a 2c66.2c66.1.23e
2c68.2c6c.2.2c67 2c73.2c73.1.2c72 2c76.2c76.1.2c75 2c81.2ce3.2.2c80 2cec.2cee.2.2ceb
2cf3.2cf3.1.2cf2 2d00.2d25.1.10a0 2d27.2d27.1.10c7 2d2d.2d2d.1.10cd a641.a66d.2.a640
a681.a69b.2.a680 a723.a72f.2.a722 a733.a76f.2.a732 a77a.a77c.2.a779 a77f.a787.2.a77e
a78c.a78c.1.a78b a791.a793.2.a790 a794.a794.1.a7c4 a797.a7a9.2.a796 a7b5.a7c3.2.a7b4
a7c8.a7ca.2.a7c7 a7d1.a7d1.1.a7d0 a7d7.a7d9.2.a7d6 a7f6.a7f6.1.a7f5 ab53.ab53.1.a7b3
ab70.abbf.1.13a0 ff41.ff5a.1.ff21 10428.1044f.1.10400 104d8.104fb.1.104b0 10597.105a1.1.10570
105a3.105b1.1.1057c 105b3.105b9.1.1058c 105bb.105bc.1.10594 10cc0.10cf2.1.10c80
118c0.118df.1.118a0 16e60.16e7f.1.16e40 1e922.1e943.1.1e900"

/-- Characters whose upper case form has several characters. -/
def upperLongTable : String :=
"df.53.53 149.2bc.4e 1f0.4a.30c 390.399.308.301 3b0.3a5.308.301 587.535.552 1e96.48.331
1e97.54.308 1e98.57.30a 1e99.59.30a 1e9a.41.2be 1f50.3a5.313 1f52.3a5.313.300 1f54.3a5.313.301
1f56.3a5.313.342 1f80.1f08.399 1f81.1f09.399 1f82.1f0a.399 1f83.1f0b.399 1f84.1f0c.399
1f85.1f0d.399 1f86.1f0e.399 1f87.1f0f.399 1f88.1f08.399 1f89.1f09.399 1f8a.1f0a.399
1f8b.1f0b.399 1f8c.1f0c.399 1f8d.1f0d.399 1f8e.1f0e.399 1f8f.1f0f.399 1f90.1f28.399
1f91.1f29.399 1f92.1f2a.399 1f93.1f2b.399 1f94.1f2c.399 1f95.1f2d.399 1f96.1f2e.399
1f97.1f2f.399 1f98.1f28.399 1f99.1f29.399 1f9a.1f2a.399 1f9b.1f2b.399 1f9c.1f2c.399
1f9d.1f2d.399 1f9e.1f2e.399 1f9f.1f2f.399 1fa0.1f68.399 1fa1.1f69.399 1fa2.1f6a.399
1fa3.1f6b.399 1fa4.1f6c.399 1fa5.1f6d.399 1fa6.1f6e.399 1fa7.1f6f.399 1fa8.1f68.399
1fa9.1f69.399 1faa.1f6a.399 1fab.1f6b.399 1fac.1f6c.399 1fad.1f6d.399 1fae.1f6e.399
1faf.1f6f.399 1fb2.1fba.399 1fb3.391.399 1fb4.386.399 1fb6.391.342 1fb7.391.342.399 1fbc.391.399
1fc2.1fca.399 1fc3.397.399 1fc4.389.399 1fc6.397.342 1fc7.397.342.399 1fcc.397.399
1fd2.399.308.300 1fd3.399.308.301 1fd6.399.342 1fd7.399.308.342 1fe2.3a5.308.300
1fe3.3a5.308.301 1fe4.3a1.313 1fe6.3a5.342 1fe7.3a5.308.342 1ff2.1ffa.399 1ff3.3a9.399
1ff4.38f.399 1ff6.3a9.342 1ff7.3a9.342.399 1ffc.3a9.399 fb00.46.46 fb01.46.49 fb02.46.4c
fb03.46.46.49 fb04.46.46.4c fb05.53.54 fb06.53.54 fb13.544.546 fb14.544.535 fb15.544.53b
fb16.54e.546 fb17.544.53d"

/-- The runs of `unprintableTable`. -/
def unprintableRanges : Array CodeRange := readRanges unprintableTable

/-- The runs of `punctuationTable`. -/
def punctuationRanges : Array CodeRange := readRanges punctuationTable

/-- Whether a quoted text shows the character as it is. -/
def isPrintable (c : Char) : Bool :=
  if c.toNat < 127 then 32 ≤ c.toNat
  else !isControl c && !inRanges unprintableRanges c.toNat

/-- Punctuation in the sense of the markup rules: ASCII punctuation, or a mark or symbol. -/
def isPunctuation (c : Char) : Bool :=
  if c.toNat < 128 then isAsciiPunctuation c else inRanges punctuationRanges c.toNat

/-- The runs of `alphanumericTable`. -/
def alphanumericRanges : Array CodeRange := readRanges alphanumericTable

/-- The runs of `decimalTable`. -/
def decimalRanges : Array CodeRange := readRanges decimalTable

/-- Letters, digits and the underscore. -/
def isWordChar (c : Char) : Bool :=
  if c.toNat < 128 then isAsciiLetter c || isAsciiDigit c || c == '_'
  else inRanges alphanumericRanges c.toNat

/-- Decimal digits of any script. -/
def isDecimalDigit (c : Char) : Bool :=
  if c.toNat < 128 then isAsciiDigit c else inRanges decimalRanges c.toNat

/-- The value of a decimal digit of any script. Each script has its ten digits in a row. -/
def digitValue (c : Char) : Nat :=
  match decimalRanges.find? (fun r => r.first ≤ c.toNat && c.toNat ≤ r.last) with
  | some r => (c.toNat - r.first) % 10
  | none => c.toNat - 48

/-- A run of characters that change case by the same step. -/
structure CaseRun where
  first : Nat
  last : Nat
  step : Nat
  target : Nat

/-- Reads a table of case runs. -/
def readCaseRuns (table : String) : Array CaseRun :=
  ((words table.toList).filterMap (fun w => match (splitWhere (· == '.') w).map readHex with
    | [a, b, s, t] => some ⟨a, b, s, t⟩
    | _ => none)).toArray

/-- Reads a table of long case forms. -/
def readLongForms (table : String) : Array (Nat × List Char) :=
  ((words table.toList).filterMap (fun w => match (splitWhere (· == '.') w).map readHex with
    | a :: ts => some (a, ts.map Char.ofNat)
    | [] => none)).toArray

/-- The case form of a character according to a pair of tables. -/
def caseForm (runs : Array CaseRun) (long : Array (Nat × List Char)) (c : Char) : List Char :=
  let n := c.toNat
  match long.find? (fun e => e.1 == n) with
  | some e => e.2
  | none =>
    match runs.find? (fun r => r.first ≤ n && n ≤ r.last && (n - r.first) % r.step == 0) with
    | some r => [Char.ofNat (r.target + (n - r.first))]
    | none => [c]

/-- The runs of `lowerTable`. -/
def lowerRuns : Array CaseRun := readCaseRuns lowerTable

/-- The forms of `lowerLongTable`. -/
def lowerLong : Array (Nat × List Char) := readLongForms lowerLongTable

/-- The runs of `upperTable`. -/
def upperRuns : Array CaseRun := readCaseRuns upperTable

/-- The forms of `upperLongTable`. -/
def upperLong : Array (Nat × List Char) := readLongForms upperLongTable

/-- The lower case form of a character. -/
def lowerChar (c : Char) : List Char :=
  if c.toNat < 128 then [c.toLower] else caseForm lowerRuns lowerLong c

/-- The upper case form of a character. -/
def upperChar (c : Char) : List Char :=
  if c.toNat < 128 then [c.toUpper] else caseForm upperRuns upperLong c

/-- The runs of `casedTable`. -/
def casedRanges : Array CodeRange := readRanges casedTable

/-- The runs of `passedOverTable`. -/
def passedOverRanges : Array CodeRange := readRanges passedOverTable

/-- Whether a text begins with a letter that has a case, but for what is passed over. -/
def meetsCased (cs : List Char) : Bool :=
  match cs.dropWhile (fun c => inRanges passedOverRanges c.toNat) with
  | [] => false
  | c :: _ => inRanges casedRanges c.toNat

/-- The lower case form of a character between what stands in front of it, in reverse order, and
what stands behind it. A capital sigma has a form of its own at the end of a word. -/
def lowerBetween (before : List Char) (c : Char) (behind : List Char) : List Char :=
  if c == 'Σ' then [if meetsCased before && !meetsCased behind then 'ς' else 'σ'] else lowerChar c

/-- A text in lower case behind another, which is in reverse order. -/
def lowerBehind (before : List Char) : List Char → List Char
  | [] => []
  | c :: cs => lowerBetween before c cs ++ lowerBehind (c :: before) cs

/-- A text in lower case. -/
def lower (cs : List Char) : List Char :=
  lowerBehind [] cs

/-- A text in upper case. -/
def upper (cs : List Char) : List Char :=
  cs.flatMap upperChar

end NotebookTree.Text
