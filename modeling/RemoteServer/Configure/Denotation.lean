import RemoteServer.Configure.Indentation

/-! What the loader makes of any bytes at all, and how files compose: one file after
another, and lines in another order. -/
namespace RemoteServer
open Configure InputStream Loop

namespace TextLine

def linesOf (bytes : List UInt8) : List TextLine := (pieces bytes).attachWith _ (pieces_free bytes)

/-- What stands before the first separator. -/
def word (line : TextLine) : List UInt8 := line.val.takeWhile fun b => !isSeparator b

def mentions (lines : List TextLine) (key : List UInt8) : Bool := lines.any fun line => line.word = key

theorem linesOf_texts (bytes : List UInt8) : (linesOf bytes).map Subtype.val = pieces bytes :=
  List.attachWith_map_subtype_val _

theorem file_linesOf (bytes : List UInt8) : file (linesOf bytes) false = bytes := by
  rw [file, linesOf_texts, join_pieces]
  exact List.append_nil bytes

theorem linesOf_append (first second : List UInt8) :
    linesOf (first ++ newline :: second) = linesOf first ++ linesOf second := by
  apply List.map_injective_iff.mpr Subtype.val_injective
  rw [List.map_append, linesOf_texts, linesOf_texts, linesOf_texts, pieces,
    List.splitOn_append_cons_self, pieces, pieces]

theorem begins_eq_none_iff (line : TextLine) (key : List UInt8) : line.begins key = none ↔ line.word ≠ key := by
  rw [begins, word]
  split
  · rename_i starts
    exact iff_of_false (Option.some_ne_none _) (not_not.mpr starts)
  · rename_i other
    exact iff_of_true rfl other

theorem stated_append (lines lines' : List TextLine) (key : List UInt8) :
    stated (lines ++ lines') key = if mentions lines' key then stated lines' key else stated lines key := by
  simp only [stated, List.reverse_append, List.findSome?_append]
  cases found : lines'.reverse.findSome? (begins key) with
  | none =>
    have silent : mentions lines' key = false := by
      rw [List.findSome?_eq_none_iff] at found
      refine List.any_eq_false.mpr fun line member => ?_
      have other := (line.begins_eq_none_iff key).mp (found line (List.mem_reverse.mpr member))
      simpa using other
    rw [silent, Option.none_or]
    rfl
  | some value =>
    have spoken : mentions lines' key = true := by
      obtain ⟨line, member, begins⟩ := List.exists_of_findSome?_eq_some found
      refine List.any_eq_true.mpr ⟨line, List.mem_reverse.mp member, decide_eq_true ?_⟩
      by_contra other
      rw [(line.begins_eq_none_iff key).mpr other] at begins
      contradiction
    rw [spoken]
    rfl

/-- The last of the lines that begin with the key is all that matters. -/
theorem stated_filter (lines : List TextLine) (key : List UInt8) :
    stated lines key =
      (((lines.filter fun line => line.word = key).getLast?.bind (begins key)).or (Configure.new key)).getD [] := by
  have last : lines.reverse.findSome? (begins key) =
      (lines.filter fun line => line.word = key).getLast?.bind (begins key) := by
    rw [← List.head?_reverse, ← List.filter_reverse]
    induction lines.reverse with
    | nil => rfl
    | cons line rest ih =>
      rw [List.findSome?_cons]
      by_cases starts : line.word = key
      · obtain ⟨value, begins⟩ := Option.ne_none_iff_exists'.mp
          (mt (line.begins_eq_none_iff key).mp (not_not.mpr starts))
        simp only [List.filter_cons, starts, decide_true, if_true, List.head?_cons, Option.bind_some, begins]
      · rw [List.filter_cons_of_neg (by simpa using starts), (line.begins_eq_none_iff key).mpr starts, ih]
  rw [stated, last]

end TextLine

open TextLine

section
variable {bytes first second key : List UInt8} {cfg cfg' both : Configuration}

/-- An object can be loaded unless a line is too long. -/
theorem loads_iff (bytes : List UInt8) :
    (∃ cfg, Loads bytes cfg) ↔ ∀ line ∈ linesOf bytes, line.val.length < 2 ^ 32 := by
  constructor
  · rintro ⟨cfg, loads⟩
    rw [← file_linesOf bytes] at loads
    exact loads.short
  · intro short
    obtain ⟨m_info, loads, _⟩ := loads_file short false
    rw [file_linesOf] at loads
    exact ⟨_, loads⟩

theorem Loads.denotes (loads : Loads bytes cfg) :
    cfg.Agrees (initMember fun key => some (stated (linesOf bytes) key)) := by
  obtain ⟨m_info, loads', values⟩ := loads_file ((loads_iff bytes).mp ⟨cfg, loads⟩) false
  rw [file_linesOf] at loads'
  obtain rfl := loads'.unique loads
  exact initMember_agrees fun key isKey => values key isKey

theorem Loads.value (loads : Loads bytes cfg) (isKey : key ≠ []) :
    cfg.getValue key = stated (linesOf bytes) key := by
  rw [loads.denotes.value key isKey, getValue_initMember]
  rfl

/-- One file after another is loaded exactly when each of them is, and is the second
on top of the first. -/
theorem overlay (first second : List UInt8) :
    ((∃ both, Loads (first ++ newline :: second) both) ↔
      (∃ cfg, Loads first cfg) ∧ ∃ cfg', Loads second cfg') ∧
    ∀ cfg cfg' both, Loads first cfg → Loads second cfg' → Loads (first ++ newline :: second) both →
      both.Agrees (initMember fun key =>
        some (if mentions (linesOf second) key then cfg'.getValue key else cfg.getValue key)) := by
  constructor
  · rw [loads_iff, loads_iff, loads_iff, linesOf_append, List.forall_mem_append]
  · intro cfg cfg' both loads loads' loadsBoth
    refine loadsBoth.denotes.trans (initMember_agrees fun key isKey => ?_)
    rw [linesOf_append, stated_append, loads.value isKey, loads'.value isKey]

/-- Two files that load and have the same last line for every key load to the same values
and members, whatever the order of their lines, and whatever lines are overridden. -/
theorem last_lines_decide (loads : Loads first cfg) (loads' : Loads second cfg')
    (same : ∀ key, key ≠ [] → ((linesOf first).filter fun line => line.word = key).getLast? =
      ((linesOf second).filter fun line => line.word = key).getLast?) : cfg.Agrees cfg' := by
  refine loads.denotes.trans (.trans (initMember_agrees fun key isKey => ?_) loads'.denotes.symm)
  rw [stated_filter, stated_filter, same key isKey]

end

theorem last_lines_decide_swapped :
    ∃ cfg cfg', Loads (chars "max_qps 5\nhost a\nmax_qps 7") cfg ∧ Loads (chars "max_qps 7\nhost a") cfg' ∧
      cfg.Agrees cfg' := by
  obtain ⟨cfg, loads⟩ := (loads_iff (chars "max_qps 5\nhost a\nmax_qps 7")).mpr (by decide)
  obtain ⟨cfg', loads'⟩ := (loads_iff (chars "max_qps 7\nhost a")).mpr (by decide)
  refine ⟨cfg, cfg', loads, loads', last_lines_decide loads loads' fun key isKey => ?_⟩
  have lines : linesOf (chars "max_qps 5\nhost a\nmax_qps 7") =
    [⟨chars "max_qps 5", by decide⟩, ⟨chars "host a", by decide⟩, ⟨chars "max_qps 7", by decide⟩] := by decide
  have lines' : linesOf (chars "max_qps 7\nhost a") =
    [⟨chars "max_qps 7", by decide⟩, ⟨chars "host a", by decide⟩] := by decide
  rw [lines, lines']
  by_cases qps : chars "max_qps" = key
  · subst qps
    decide
  · by_cases host : chars "host" = key
    · subst host
      decide
    · have before : TextLine.word ⟨chars "max_qps 5", by decide⟩ = chars "max_qps" := by decide
      have after : TextLine.word ⟨chars "max_qps 7", by decide⟩ = chars "max_qps" := by decide
      have between : TextLine.word ⟨chars "host a", by decide⟩ = chars "host" := by decide
      simp only [List.filter_cons, before, between, after, qps, host, decide_false, List.filter_nil,
        Bool.false_eq_true, if_false]

end RemoteServer
