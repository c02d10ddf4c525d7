import DtoGen.Text.Blank
import DtoGen.Text.Letter

namespace DtoGen.Text

/-- Tabs become spaces up to the next column that is a multiple of eight, other white space of
ASCII one space. -/
def expand : (column : Nat) → List Char → List Char
  | _, [] => []
  | col, c :: rest =>
    if c = '\t' then
      let n := 8 - col % 8
      List.replicate n ' ' ++ expand (col + n) rest
    else if c = '\n' || c = '\r' then ' ' :: expand 0 rest
    else if c = '\x0b' || c = '\x0c' then ' ' :: expand (col + 1) rest
    else c :: expand (col + 1) rest

def isWordEnd (c : Char) : Bool := isWordChar c || "!\"'&.,?".toList.contains c

def dashAhead (rest : List Char) : Bool :=
  let hyphens := (rest.takeWhile (· = '-')).length
  2 ≤ hyphens && ((rest.drop hyphens).head?.map isWordChar).getD false

/-- A hyphen at which a word may break: after two letters, or after a letter that a hyphen parts
from another, and before two letters, which a hyphen may part. -/
def breaksAfterHyphen (before rest : List Char) : Bool :=
  (match before with
    | '-' :: a :: b :: more =>
      isWordLetter a &&
        (isWordLetter b || (b = '-' && (more.head?.map isWordLetter).getD false))
    | _ => false) &&
  (match rest with
    | a :: '-' :: b :: _ => isWordLetter a && isWordLetter b
    | a :: b :: _ => isWordLetter a && isWordLetter b
    | _ => false)

def endsDash (before rest : List Char) : Bool :=
  let hyphens := (before.takeWhile (· = '-')).length
  2 ≤ hyphens && ((before.drop hyphens).head?.map isWordEnd).getD false &&
    (rest.head?.map isWordChar).getD false

/-- Whether a chunk ends between what stands before, last character first, and the rest. -/
def chunkEnds (before rest : List Char) : Bool :=
  match before, rest with
  | p :: _, c :: _ =>
    if p = ' ' || c = ' ' then p ≠ c
    else breaksAfterHyphen before rest || (isWordEnd p && dashAhead rest) || endsDash before rest
  | _, _ => true

def chunksFrom (before : List Char) : List Char → List (List Char)
  | [] => []
  | c :: rest =>
    if chunkEnds (c :: before) rest then [c] :: chunksFrom (c :: before) rest
    else consHead c (chunksFrom (c :: before) rest)

theorem chunksFrom_flatten (before s : List Char) : (chunksFrom before s).flatten = s := by
  induction s generalizing before with
  | nil => rfl
  | cons c rest ih =>
    have h := ih (c :: before)
    rw [chunksFrom]
    split
    · simp [h]
    · cases hc : chunksFrom (c :: before) rest with
      | nil => rw [hc] at h; simp [consHead, ← h]
      | cons p ps => rw [hc] at h; simp [consHead, ← h]

def fit : (room : Nat) → List (List Char) → List (List Char) × List (List Char)
  | _, [] => ([], [])
  | room, c :: cs =>
    if c.length ≤ room then
      let (taken, rest) := fit (room - c.length) cs
      (c :: taken, rest)
    else ([], c :: cs)

/-- How much of a chunk too long for any line goes into a room: up to its last hyphen there, if
something else precedes it, or all. -/
def cut (room : Nat) (chunk : List Char) : Nat :=
  let p := chunk.take room
  let upTo := p.length - (p.reverse.takeWhile (· ≠ '-')).length
  if (p.take (upTo - 1)).any (· ≠ '-') then upTo else room

def isBlankChunk (c : List Char) : Bool := c.all isBlank

def nextLine (width : Nat) (chunks : List (List Char)) : List (List Char) × List (List Char) :=
  let (taken, rest) := fit width chunks
  match rest with
  | [] => (taken, [])
  | c :: cs =>
    if width < c.length then
      let n := cut (width - taken.flatten.length) c
      (taken ++ [c.take n], c.drop n :: cs)
    else (taken, rest)

/-- What is left to be filled in: characters, and one for each chunk. -/
def weight : List (List Char) → Nat
  | [] => 0
  | c :: cs => c.length + 1 + weight cs

@[simp] theorem weight_nil : weight [] = 0 := rfl

@[simp] theorem weight_cons (c : List Char) (cs : List (List Char)) :
    weight (c :: cs) = c.length + 1 + weight cs := rfl

theorem weight_fit (room : Nat) (cs : List (List Char)) :
    weight (fit room cs).1 + weight (fit room cs).2 = weight cs := by
  induction cs generalizing room with
  | nil => rfl
  | cons c cs ih =>
    rw [fit]
    split
    · have := ih (room - c.length)
      simp only [weight_cons]
      omega
    · simp only [weight_nil, Nat.zero_add]

theorem cut_pos {room : Nat} {c : List Char} (h : 0 < room) : 0 < cut room c := by
  unfold cut
  simp only
  split
  · rename_i hh
    rcases Nat.eq_zero_or_pos
      ((c.take room).length - ((c.take room).reverse.takeWhile (· ≠ '-')).length) with h0 | h0
    · rw [h0] at hh; simp at hh
    · exact h0
  · exact h

theorem weight_fit_pos {room : Nat} {c : List Char} (cs : List (List Char)) (h : c.length ≤ room) :
    0 < weight (fit room (c :: cs)).1 := by
  rw [fit, if_pos h]
  simp only [weight_cons]
  omega

theorem weight_nextLine {width : Nat} {c : List Char} {cs : List (List Char)} (h : 0 < width) :
    weight (nextLine width (c :: cs)).2 < weight (c :: cs) := by
  have hw := weight_fit width (c :: cs)
  unfold nextLine
  simp only
  split
  · simp only [weight_nil, weight_cons]
    omega
  · rename_i d ds hrest
    rw [hrest] at hw
    split
    · by_cases hc : c.length ≤ width
      · have ht := weight_fit_pos cs hc
        simp only [weight_cons, List.length_drop] at hw ⊢
        omega
      · have hf : fit width (c :: cs) = ([], c :: cs) := by rw [fit, if_neg hc]
        rw [hf] at hrest ⊢
        simp only [List.cons.injEq] at hrest
        obtain ⟨rfl, rfl⟩ := hrest
        have := cut_pos (c := c) h
        simp only [weight_cons, List.length_drop, List.flatten_nil, List.length_nil, Nat.sub_zero]
        omega
    · by_cases hc : c.length ≤ width
      · have ht := weight_fit_pos cs hc
        simp only
        rw [hrest]
        omega
      · have hf : fit width (c :: cs) = ([], c :: cs) := by rw [fit, if_neg hc]
        rw [hf] at hrest
        simp only [List.cons.injEq] at hrest
        obtain ⟨rfl, rfl⟩ := hrest
        omega

def dropBlankEnd (line : List (List Char)) : List (List Char) :=
  match line.getLast? with
  | some c => if isBlankChunk c then line.dropLast else line
  | none => []

/-- Chunks that begin a line: a blank one is dropped, except before the first line. -/
def lineStart (first : Bool) (chunks : List (List Char)) : List (List Char) :=
  match chunks with
  | c :: cs => if !first && isBlankChunk c then cs else chunks
  | [] => []

theorem weight_lineStart (first : Bool) (chunks : List (List Char)) :
    weight (lineStart first chunks) ≤ weight chunks := by
  unfold lineStart
  split
  · split
    · simp only [weight_cons]
      omega
    · exact Nat.le_refl _
  · exact Nat.le_refl _

def lineWidth : Nat := 80

def fill (first : Bool) (chunks : List (List Char)) : List (List Char) :=
  match h : lineStart first chunks with
  | [] => []
  | c :: cs =>
    let next := nextLine lineWidth (c :: cs)
    have : weight next.2 < weight chunks := by
      have h1 := weight_lineStart first chunks
      rw [h] at h1
      exact Nat.lt_of_lt_of_le (weight_nextLine (by decide)) h1
    match dropBlankEnd next.1 with
    | [] => fill first next.2
    | line => line.flatten :: fill false next.2
termination_by weight chunks

def wrap (s : List Char) : List (List Char) := fill true (chunksFrom [] (expand 0 s))

end DtoGen.Text
