import RemoteServer.Lib.StdString

/-! An input stream that is read line by line. After its last byte it reports the
end of the file, or an error. -/

inductive InputStream.Ending where
  | eof | error
  deriving DecidableEq

/-- `rest` is what has not been read. -/
structure InputStream where
  rest : List UInt8
  ending : InputStream.Ending
  eofbit : Bool
  failbit : Bool
  badbit : Bool

namespace InputStream
open StdString

def newline : UInt8 := 10

/-- A stream just opened. -/
def start (bytes : List UInt8) (ending : Ending) : InputStream where
  rest := bytes
  ending := ending
  eofbit := false
  failbit := false
  badbit := false

def good (ios : InputStream) : Bool := !ios.eofbit && !ios.failbit && !ios.badbit

/-- `std::getline` into an empty string. It takes the bytes before the next newline
and the newline; without one, all there are, and then a status bit tells why. A
stream that is not good yields nothing. -/
def getline (ios : InputStream) : List UInt8 × InputStream :=
  if ios.good then
    let line := ios.rest.takeWhile (· ≠ newline)
    match ios.rest.dropWhile (· ≠ newline), ios.ending with
    | _ :: rest, _ => (line, { ios with rest := rest })
    | [], .eof => (line, { ios with rest := [], eofbit := true, failbit := line.isEmpty })
    | [], .error => (line, { ios with rest := [], badbit := true, failbit := line.isEmpty })
  else ([], { ios with failbit := true })

theorem start_good (bytes : List UInt8) (ending : Ending) : (start bytes ending).good = true := rfl

/-- The lines of a file, as its bytes hold them: every newline ends one. -/
def join (lines : List (List UInt8)) : List UInt8 := [newline].intercalate lines

theorem join_cons (line next : List UInt8) (lines : List (List UInt8)) :
    join (line :: next :: lines) = line ++ newline :: join (next :: lines) := by
  simp [join, List.intercalate]

theorem join_snoc {texts : List (List UInt8)} (nonempty : texts ≠ []) :
    join (texts ++ [[]]) = join texts ++ [newline] := by
  induction texts with
  | nil => contradiction
  | cons text texts ih =>
    cases texts with
    | nil => simp [join]
    | cons next texts =>
      rw [List.cons_append, List.cons_append, join_cons, join_cons, List.append_assoc, List.cons_append,
        ← List.cons_append, ih (List.cons_ne_nil _ _)]

/-- `getline` yields one more line, an empty one, after a final newline, and one for
a file without lines. -/
theorem join_padded (texts : List (List UInt8)) (final : Bool) :
    ∃ n, texts ++ List.replicate n [] ≠ [] ∧
      join texts ++ (if final then [newline] else []) = join (texts ++ List.replicate n []) := by
  -- the lines, or an empty one when there are none
  obtain ⟨n, nonempty, same⟩ : ∃ n, texts ++ List.replicate n [] ≠ [] ∧
      join texts = join (texts ++ List.replicate n []) := by
    cases texts with
    | nil => exact ⟨1, List.cons_ne_nil _ _, rfl⟩
    | cons text texts => exact ⟨0, List.cons_ne_nil _ _, by rw [List.replicate_zero, List.append_nil]⟩
  cases final with
  | false => exact ⟨n, nonempty, by rw [if_neg (by decide), List.append_nil, same]⟩
  | true =>
    refine ⟨n + 1, by simp, ?_⟩
    rw [if_pos rfl, same, List.replicate_succ', ← List.append_assoc, join_snoc nonempty]

/-- The pieces of the bytes between newlines. -/
def pieces (bytes : List UInt8) : List (List UInt8) := bytes.splitOn newline

theorem pieces_ne_nil (bytes : List UInt8) : pieces bytes ≠ [] := List.splitOn_ne_nil newline bytes

theorem join_pieces (bytes : List UInt8) : join (pieces bytes) = bytes := List.intercalate_splitOn newline

theorem pieces_free (bytes : List UInt8) : ∀ line ∈ pieces bytes, newline ∉ line := by
  induction bytes with
  | nil => exact List.forall_mem_singleton.mpr List.not_mem_nil
  | cons byte bytes ih =>
    obtain ⟨line, rest, split⟩ := List.exists_cons_of_ne_nil (pieces_ne_nil bytes)
    rw [pieces] at split ih
    rw [split, List.forall_mem_cons] at ih
    rw [pieces, List.splitOn_cons_eq_if_modifyHead, split, List.modifyHead_cons]
    by_cases ends : byte = newline
    · rw [if_pos (beq_iff_eq.mpr ends)]
      exact List.forall_mem_cons.mpr ⟨List.not_mem_nil, List.forall_mem_cons.mpr ih⟩
    · rw [if_neg (mt beq_iff_eq.mp ends)]
      refine List.forall_mem_cons.mpr ⟨fun member => ?_, ih.2⟩
      rcases List.mem_cons.mp member with same | later
      · exact ends same.symm
      · exact ih.1 later

variable {line : List UInt8}

theorem getline_line (free : newline ∉ line) (tail : List UInt8) (ending : Ending) :
    (start (line ++ newline :: tail) ending).getline = (line, start tail ending) := by
  have before := takeWhile_ne_append free tail
  have after := dropWhile_ne_append free tail
  rw [getline, if_pos (start_good ..)]
  simp only [start, before, after]

/-- At the last line the stream meets its end. -/
theorem getline_last (free : newline ∉ line) :
    ∃ ios, (start line .eof).getline = (line, ios) ∧ ios.eofbit = true := by
  have before := takeWhile_ne free
  have after := List.dropWhile_eq_nil_iff.mpr (all_ne free)
  rw [getline, if_pos (start_good ..)]
  simp only [start, before, after]
  exact ⟨_, rfl, rfl⟩

/-- On a stream that ends in an error the end of the file is never met. -/
theorem getline_error {ios : InputStream} (broken : ios.ending = .error) (clear : ios.eofbit = false) :
    ios.getline.2.ending = .error ∧ ios.getline.2.eofbit = false := by
  rw [getline, broken]
  split
  · split
    · exact ⟨rfl, clear⟩
    · contradiction
    · exact ⟨rfl, clear⟩
  · exact ⟨rfl, clear⟩

end InputStream
