import LineReview.Text.Cluster

/-!
# Terminal cells

How many cells of a terminal a text takes. A cluster is as wide as its first
code point of non-zero width; controls, invisible code points and combining
marks have none, wide East Asian code points two, and all others one.

Code points of ambiguous width depend on the terminal: it draws them wide where
the language of the process is an East Asian one. `Widths` says which of the two
holds.
-/

namespace LineReview.Text

/-- How wide code points of ambiguous width are. -/
inductive Widths where
  /-- One cell. -/
  | western
  /-- Two cells. -/
  | eastAsian
deriving DecidableEq, Repr

namespace Cells

/-- Code points with the East Asian width W or F. -/
def wideTable : CodeTable := CodeTable.ofLines
  ["1100-115f 231a-231b 2329-232a 23e9-23ec 23f0 23f3 25fd-25fe 2614-2615 2648-2653 267f 2693",
   "26a1 26aa-26ab 26bd-26be 26c4-26c5 26ce 26d4 26ea 26f2-26f3 26f5 26fa 26fd 2705 270a-270b",
   "2728 274c 274e 2753-2755 2757 2795-2797 27b0 27bf 2b1b-2b1c 2b50 2b55 2e80-2e99 2e9b-2ef3",
   "2f00-2fd5 2ff0-303e 3041-3096 3099-30ff 3105-312f 3131-318e 3190-31e3 31ef-321e 3220-3247",
   "3250-4dbf 4e00-a48c a490-a4c6 a960-a97c ac00-d7a3 f900-faff fe10-fe19 fe30-fe52 fe54-fe66",
   "fe68-fe6b ff01-ff60 ffe0-ffe6 16fe0-16fe4 16ff0-16ff1 17000-187f7 18800-18cd5 18d00-18d08",
   "1aff0-1aff3 1aff5-1affb 1affd-1affe 1b000-1b122 1b132 1b150-1b152 1b155 1b164-1b167",
   "1b170-1b2fb 1f004 1f0cf 1f18e 1f191-1f19a 1f200-1f202 1f210-1f23b 1f240-1f248 1f250-1f251",
   "1f260-1f265 1f300-1f320 1f32d-1f335 1f337-1f37c 1f37e-1f393 1f3a0-1f3ca 1f3cf-1f3d3",
   "1f3e0-1f3f0 1f3f4 1f3f8-1f43e 1f440 1f442-1f4fc 1f4ff-1f53d 1f54b-1f54e 1f550-1f567 1f57a",
   "1f595-1f596 1f5a4 1f5fb-1f64f 1f680-1f6c5 1f6cc 1f6d0-1f6d2 1f6d5-1f6d7 1f6dc-1f6df",
   "1f6eb-1f6ec 1f6f4-1f6fc 1f7e0-1f7eb 1f7f0 1f90c-1f93a 1f93c-1f945 1f947-1f9ff 1fa70-1fa7c",
   "1fa80-1fa88 1fa90-1fabd 1fabf-1fac5 1face-1fadb 1fae0-1fae8 1faf0-1faf8 20000-2fffd",
   "30000-3fffd"]

/-- Code points whose names call them combining. -/
def combiningTable : CodeTable := CodeTable.ofLines
  ["300-36f 483-489 7eb-7f3 c00 c04 cf3 d00-d01 135d-135f 1a7f 1ab0-1ace 1b6b-1b73 1dc0-1dff",
   "20d0-20f0 2cef-2cf1 2de0-2dff 3099-309a a66f-a672 a674-a67d a69e-a69f a6f0-a6f1 a8e0-a8f1",
   "fe20-fe2f 101fd 10376-1037a 10eab-10eac 10f46-10f50 10f82-10f85 11300-11301 1133b-1133c",
   "11366-1136c 11370-11374 16af0-16af4 1cf00-1cf2d 1cf30-1cf46 1d165-1d169 1d16d-1d172",
   "1d17b-1d182 1d185-1d18b 1d1aa-1d1ad 1d242-1d244 1e000-1e006 1e008-1e018 1e01b-1e021",
   "1e023-1e024 1e026-1e02a 1e08f 1e8d0-1e8d6"]

/-- Formatting characters and other code points that leave no mark. -/
def invisibleTable : CodeTable := CodeTable.ofLines
  ["70f 180b-180e 200b-200f 2028-202e 206a-206f d800-dfff feff fff9-fffb fffe-ffff"]

def narrowTable : CodeTable := CodeTable.ofLines ["27e6-27ed 2985-2986"]

/-- Code points with the East Asian width A. -/
def ambiguousTable : CodeTable := CodeTable.ofLines
  ["a1 a4 a7-a8 aa ad-ae b0-b4 b6-ba bc-bf c6 d0 d7-d8 de-e1 e6 e8-ea ec-ed f0 f2-f3 f7-fa",
   "fc fe 101 111 113 11b 126-127 12b 131-133 138 13f-142 144 148-14b 14d 152-153 166-167",
   "16b 1ce 1d0 1d2 1d4 1d6 1d8 1da 1dc 251 261 2c4 2c7 2c9-2cb 2cd 2d0 2d8-2db 2dd 2df",
   "300-36f 391-3a1 3a3-3a9 3b1-3c1 3c3-3c9 401 410-44f 451 2010 2013-2016 2018-2019",
   "201c-201d 2020-2022 2024-2027 2030 2032-2033 2035 203b 203e 2074 207f 2081-2084 20ac",
   "2103 2105 2109 2113 2116 2121-2122 2126 212b 2153-2154 215b-215e 2160-216b 2170-2179",
   "2189 2190-2199 21b8-21b9 21d2 21d4 21e7 2200 2202-2203 2207-2208 220b 220f 2211 2215",
   "221a 221d-2220 2223 2225 2227-222c 222e 2234-2237 223c-223d 2248 224c 2252 2260-2261",
   "2264-2267 226a-226b 226e-226f 2282-2283 2286-2287 2295 2299 22a5 22bf 2312 2460-24e9",
   "24eb-254b 2550-2573 2580-258f 2592-2595 25a0-25a1 25a3-25a9 25b2-25b3 25b6-25b7",
   "25bc-25bd 25c0-25c1 25c6-25c8 25cb 25ce-25d1 25e2-25e5 25ef 2605-2606 2609 260e-260f",
   "261c 261e 2640 2642 2660-2661 2663-2665 2667-266a 266c-266d 266f 269e-269f 26bf",
   "26c6-26cd 26cf-26d3 26d5-26e1 26e3 26e8-26e9 26eb-26f1 26f4 26f6-26f9 26fb-26fc",
   "26fe-26ff 273d 2776-277f 2b56-2b59 3248-324f e000-f8ff fe00-fe0f fffd 1f100-1f10a",
   "1f110-1f12d 1f130-1f169 1f170-1f18d 1f18f-1f190 1f19b-1f1ac e0100-e01ef f0000-ffffd",
   "100000-10fffd"]

def ofCode (widths : Widths) (c : Nat) : Nat :=
  if c < 0x20 then 0
  else if (0x7F ≤ c && c ≤ 0x9F) || c == 0xAD then 0
  else if widths = .western && c < 0x300 then 1
  else if narrowTable.covers c then 1
  else if invisibleTable.covers c || combiningTable.covers c then 0
  else if wideTable.covers c || (widths = .eastAsian && ambiguousTable.covers c) then 2
  else 1

def firstWidth (widths : Widths) : List Nat → Nat
  | [] => 0
  | c :: cs => if ofCode widths c = 0 then firstWidth widths cs else ofCode widths c

def ofCluster (widths : Widths) (t : Text) : Nat := firstWidth widths (codes t)

end Cells

/-- Cells of a text. A single byte is never looked at as part of a sequence, so a lone
broken byte takes a cell. -/
def cells (widths : Widths) (t : Text) : Nat :=
  match t with
  | [] => 0
  | [b] => if b < 0x20 || b == 0x7F then 0 else 1
  | _ => (clusters t).foldl (fun n c => n + Cells.ofCluster widths c) 0

/-- The longest run of whole clusters in front that takes at most `width` cells. -/
def fitting (widths : Widths) (width : Nat) : List Text → Text
  | [] => []
  | c :: cs =>
    if Cells.ofCluster widths c ≤ width then
      c ++ fitting widths (width - Cells.ofCluster widths c) cs
    else []

/-- The text itself if it fits into `width` cells, else as much of it as leaves room for the mark
that shows the cut. -/
def truncated (widths : Widths) (width : Nat) (mark t : Text) : Text :=
  if cells widths t ≤ width then t
  else fitting widths (width - cells widths mark) (clusters t) ++ mark

end LineReview.Text
