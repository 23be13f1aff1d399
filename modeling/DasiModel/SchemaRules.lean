import DasiModel.Texts
import DasiModel.Library.SegmentedPaths

/-!
# The keywords of a schema

`dasi-schema` reads the rules of a schema from its dump, one on a line. It does not
parse them: four rewrites leave each keyword behind one comma, whatever brackets,
spaces and question marks stood between two keywords.
-/

namespace SchemaRules
open Texts SegmentedPaths

def newline : Byte := 0x0A
def space : Byte := 0x20
def comma : Byte := 0x2C
def question : Byte := 0x3F
def opening : Byte := 0x5B
def closing : Byte := 0x5D

/-- The loop `while (std::getline(stream, piece, delimiter))`: what follows the last
delimiter is a piece only if there is something. -/
def getlines (delimiter : Byte) (text : Bytes) : List Bytes :=
  let pieces := text.splitOn delimiter
  if pieces.getLast? = some [] then pieces.dropLast else pieces

/-- `std::replace` of opening brackets by commas, and `std::regex_replace` of `[ \]\?]`. -/
def format (rule : Bytes) : Bytes :=
  (rule.map (fun c => if c = opening then comma else c)).filter
    (fun c => !(c == space || c == closing || c == question))

/-- One pass of the loop in `DASISchema::tokenizeRules`. -/
def tokenizeRule (rule : Bytes) : List Bytes := getlines comma (format (rule.drop 1))

/-- `DASISchema::tokenizeRules`, of what `dumpSchema` writes. -/
def tokenizeRules (dump : Bytes) : List (List Bytes) :=
  (getlines newline dump).map tokenizeRule

/-- The inner loop of `DASISchema::query`: no separator after the last key. -/
def queryKeys : List Bytes → Bytes
  | [] => []
  | [key] => key ++ ascii "=%s"
  | key :: rest => key ++ ascii "=%s" ++ ascii "," ++ queryKeys rest

/-- What `DASISchema::query` prints. -/
def query (rules : List (List Bytes)) : Bytes :=
  rules.flatMap (fun rule => ascii "\x7b" ++ queryKeys rule ++ ascii "\x7d" ++ [newline])

section Printing

/-- The characters that are not part of a keyword on a line. -/
def isReserved (c : Byte) : Bool :=
  c == opening || c == closing || c == comma || c == question || c == space || c == newline

abbrev Keyword := { text : Bytes // text ≠ [] ∧ ∀ c ∈ text, isReserved c = false }

/-- A keyword as it is printed: with spaces on both sides, and perhaps optional. -/
structure Item where
  keyword : Keyword
  isOptional : Bool
  before : Nat
  after : Nat

/-- Sibling rules: each has at least one keyword, and the rules inside it. -/
inductive Rules where
  | nil
  | rule (first : Item) (others : List Item) (inner : Rules) (after : Nat) (rest : Rules)

def Item.print (item : Item) : Bytes :=
  List.replicate item.before space ++ item.keyword.1 ++
    (if item.isOptional then [question] else []) ++ List.replicate item.after space

def Rules.print : Rules → Bytes
  | .nil => []
  | .rule first others inner after rest =>
    opening :: (first.print ++ others.flatMap (fun item => comma :: item.print)) ++ inner.print ++
      closing :: (List.replicate after space ++ rest.print)

/-- The keywords in their order of occurrence. -/
def Rules.keywords : Rules → List Bytes
  | .nil => []
  | .rule first others inner _ rest =>
    (first :: others).map (fun item => item.keyword.1) ++ inner.keywords ++ rest.keywords

/-- A top-level rule. -/
structure Rule where
  first : Item
  others : List Item
  inner : Rules

def Rule.asRules (rule : Rule) : Rules := .rule rule.first rule.others rule.inner 0 .nil

/-- The line on which a rule is printed, such as `[k1,k2?[ k3,k4[k5]][k6]]`. -/
def Rule.line (rule : Rule) : Bytes := rule.asRules.print

def Rule.keywords (rule : Rule) : List Bytes := rule.asRules.keywords

/-- The dump of a schema: every rule on a line of its own. -/
def dump (schema : List Rule) : Bytes := schema.flatMap (fun rule => rule.line ++ [newline])

end Printing

section Lines

theorem getlines_terminated {d : Byte} {lines : List Bytes} (free : ∀ line ∈ lines, d ∉ line) :
    getlines d (lines.flatMap (fun line => line ++ [d])) = lines := by
  have pieces : (lines.flatMap (fun line => line ++ [d])).splitOn d = lines ++ [[]] := by
    induction lines with
    | nil => rfl
    | cons line rest ih =>
      obtain ⟨here, later⟩ := List.forall_mem_cons.mp free
      rw [List.flatMap_cons, List.append_assoc, List.singleton_append,
        List.splitOn_append_cons_self, ih later, List.splitOn_eq_singleton here]
      rfl
  simp only [getlines, pieces, List.getLast?_concat, if_true, List.dropLast_concat]

theorem getlines_intercalate {d : Byte} {pieces : List Bytes} (own : AreSegments d pieces)
    (some : pieces ≠ []) : getlines d ([d].intercalate pieces) = pieces := by
  have last : pieces.getLast? ≠ Option.some [] := by
    intro empty
    exact (own [] (List.mem_of_mem_getLast? empty)).1 rfl
  simp only [getlines, splitOn_intercalate own some, if_neg last]

end Lines

theorem format_append (a b : Bytes) : format (a ++ b) = format a ++ format b := by
  simp only [format, List.map_append, List.filter_append]

theorem format_spaces (n : Nat) : format (List.replicate n space) = [] := by
  induction n with
  | zero => rfl
  | succ n ih => exact ih

theorem format_unreserved {text : Bytes} (free : ∀ c ∈ text, isReserved c = false) :
    format text = text := by
  induction text with
  | nil => rfl
  | cons c rest ih =>
    obtain ⟨here, later⟩ := List.forall_mem_cons.mp free
    simp only [isReserved, Bool.or_eq_false_iff, beq_eq_false_iff_ne, ne_eq] at here
    obtain ⟨⟨⟨⟨⟨not_opening, not_closing⟩, -⟩, not_question⟩, not_space⟩, -⟩ := here
    have kept : format (c :: rest) = c :: format rest := by
      simp [format, not_opening, not_closing, not_question, not_space]
    exact kept.trans (congrArg _ (ih later))

theorem format_item (item : Item) : format item.print = item.keyword.1 := by
  have mark : format (if item.isOptional then [question] else []) = [] := by
    cases item.isOptional <;> rfl
  simp only [Item.print, format_append, format_spaces,
    format_unreserved item.keyword.2.2, mark, List.nil_append,
    List.append_nil]

/-- Every keyword is left behind one comma, the first of a level as well. -/
theorem format_print (rules : Rules) : format rules.print = rooted comma rules.keywords := by
  induction rules with
  | nil => rfl
  | rule first others inner after rest ih_inner ih_rest =>
    have level : format (first.print ++ others.flatMap (fun item => comma :: item.print)) =
        first.keyword.1 ++ rooted comma (others.map (fun item => item.keyword.1)) := by
      rw [format_append, format_item]
      congr 1
      induction others with
      | nil => rfl
      | cons item others ih =>
        have comma_kept (text : Bytes) : format (comma :: text) = comma :: format text := rfl
        rw [List.flatMap_cons, format_append, comma_kept, format_item, ih]
        rfl
    have open_kept (text : Bytes) : format (opening :: text) = comma :: format text := rfl
    have close_dropped (text : Bytes) : format (closing :: text) = format text := rfl
    rw [Rules.print, format_append, format_append, open_kept, level, ih_inner, close_dropped,
      format_append, format_spaces, ih_rest, Rules.keywords, rooted_append, rooted_append]
    rfl

theorem comma_not_mem (keyword : Keyword) : comma ∉ keyword.1 :=
  fun inside => absurd (keyword.2.2 comma inside) (by decide)

theorem keywords_areSegments (rules : Rules) : AreSegments comma rules.keywords := by
  induction rules with
  | nil => exact fun s inside => nomatch inside
  | rule first others inner after rest ih_inner ih_rest =>
    have level : AreSegments comma ((first :: others).map (fun item => item.keyword.1)) := by
      intro s inside
      obtain ⟨item, -, rfl⟩ := List.mem_map.mp inside
      exact ⟨item.keyword.2.1, comma_not_mem item.keyword⟩
    exact (level.append ih_inner).append ih_rest

/-- A line is turned into its keywords, in order, and into nothing else. -/
theorem tokenizeRule_line (rule : Rule) : tokenizeRule rule.line = rule.keywords := by
  have some : rule.keywords ≠ [] := List.cons_ne_nil _ _
  have body : comma :: format (rule.line.drop 1) = comma :: [comma].intercalate rule.keywords := by
    rw [← rooted_eq_cons_intercalate some]
    exact format_print rule.asRules
  rw [tokenizeRule, List.tail_eq_of_cons_eq body]
  exact getlines_intercalate (keywords_areSegments rule.asRules) some

section OneLine

theorem newline_not_mem_item (item : Item) : newline ∉ item.print := by
  have keyword : newline ∉ item.keyword.1 :=
    fun inside => absurd (item.keyword.2.2 newline inside) (by decide)
  have spaces (n : Nat) : newline ∉ List.replicate n space :=
    fun inside => absurd (List.eq_of_mem_replicate inside) (by decide)
  have mark : newline ∉ (if item.isOptional then [question] else []) := by
    cases item.isOptional <;> decide
  simp only [Item.print, List.mem_append, spaces, keyword, mark, or_self, not_false_eq_true]

theorem newline_not_mem_print (rules : Rules) : newline ∉ rules.print := by
  induction rules with
  | nil => exact List.not_mem_nil
  | rule first others inner after rest ih_inner ih_rest =>
    have others_free : newline ∉ others.flatMap (fun item => comma :: item.print) := by
      intro inside
      obtain ⟨item, -, inside⟩ := List.mem_flatMap.mp inside
      rcases List.mem_cons.mp inside with same | inside
      · exact absurd same (by decide)
      · exact newline_not_mem_item item inside
    have spaces : newline ∉ List.replicate after space :=
      fun inside => absurd (List.eq_of_mem_replicate inside) (by decide)
    have not_opening : ¬ newline = opening := by decide
    have not_closing : ¬ newline = closing := by decide
    simp only [Rules.print, List.mem_append, List.mem_cons, newline_not_mem_item, others_free,
      spaces, not_opening, not_closing, ih_inner, ih_rest, or_self, not_false_eq_true]

end OneLine

theorem queryKeys_eq (keys : List Bytes) :
    queryKeys keys = [comma].intercalate (keys.map (fun key => key ++ ascii "=%s")) := by
  induction keys with
  | nil => rfl
  | cons key rest ih =>
    cases rest with
    | nil => simp [queryKeys]
    | cons next rest =>
      have joined : [comma].intercalate ((key :: next :: rest).map (fun key => key ++ ascii "=%s")) =
          key ++ ascii "=%s" ++ [comma] ++
            [comma].intercalate ((next :: rest).map (fun key => key ++ ascii "=%s")) := by
        simp only [List.map_cons, List.intercalate_cons_cons]
      rw [joined, ← ih, queryKeys]
      · rfl
      · exact List.cons_ne_nil _ _

/-- The keywords of a whole schema, and the query strings printed for them. -/
theorem tokenizeRules_dump (schema : List Rule) :
    tokenizeRules (dump schema) = schema.map Rule.keywords ∧
    (∀ tokens ∈ tokenizeRules (dump schema), ∀ token ∈ tokens, token ≠ []) ∧
    query (tokenizeRules (dump schema)) = schema.flatMap (fun rule =>
      ascii "\x7b" ++
        [comma].intercalate (rule.keywords.map (fun keyword => keyword ++ ascii "=%s")) ++
        ascii "\x7d" ++ [newline]) := by
  have tokens : tokenizeRules (dump schema) = schema.map Rule.keywords := by
    have lines : getlines newline (dump schema) = schema.map Rule.line := by
      have free : ∀ line ∈ schema.map Rule.line, newline ∉ line := by
        intro line inside
        obtain ⟨rule, -, rfl⟩ := List.mem_map.mp inside
        exact newline_not_mem_print rule.asRules
      rw [← getlines_terminated free, List.flatMap_map]
      rfl
    rw [tokenizeRules, lines, List.map_map]
    exact List.map_congr_left (fun rule _ => tokenizeRule_line rule)
  refine ⟨tokens, ?_, ?_⟩
  · intro ts inside token here
    rw [tokens] at inside
    obtain ⟨rule, -, rfl⟩ := List.mem_map.mp inside
    exact (keywords_areSegments rule.asRules token here).1
  · rw [tokens, query, List.flatMap_map]
    simp only [queryKeys_eq]

end SchemaRules
