import FramePacing.Printout
import FramePacing.Proofs.Word
import Mathlib.Data.List.Basic

/-!
# Printouts read back

A printout is taken apart again with nothing but its text: at the newlines into lines, at the blanks into words, and a
word at its mark into a label and what might be a span. The lines are those of the events, one for each, and a printout
of what hints at trouble has just the lines of such events out of the full one. In every line the words that read as
spans are the spans of the event in order, `readLine_line`, each with its tenths of a millisecond and its sign,
`readSpan?_span`, and nothing else that is printed reads as a span.
-/

namespace FramePacing.Printout

/-! ### Reading -/

/-- A span as it is read: whether a minus stands before it, and how many tenths of a millisecond follow. -/
structure Reading where
  minus : Bool
  tenths : Nat
deriving DecidableEq, Repr

/-- The tenths of a millisecond that a reading stands for. -/
def Reading.value (r : Reading) : Int := if r.minus then -r.tenths else r.tenths

/-- Digits, a point, one more digit, and the unit. -/
def readTenths? (s : List Char) : Option Nat :=
  match s.takeWhile Char.isDigit, s.dropWhile Char.isDigit with
  | first :: rest, ['.', tenth, 'm', 's'] =>
    if tenth.isDigit then some (Nat.ofDigitChars 10 (first :: rest ++ [tenth]) 0) else none
  | _, _ => none

/-- A span, with or without a minus. -/
def readSpan? (s : List Char) : Option Reading :=
  if s.head? = some '-' then (readTenths? s.tail).map (⟨true, ·⟩) else (readTenths? s).map (⟨false, ·⟩)

/-- A mark stands between a label and its span. -/
def isMark (c : Char) : Bool := c = '=' || c = '@'

/-- A label and the span behind the first mark. -/
def readWord? (w : List Char) : Option (String × Reading) :=
  (readSpan? (w.dropWhile (!isMark ·)).tail).map (String.ofList (w.takeWhile (!isMark ·)), ·)

/-- The labelled spans of a line. -/
def readLine (s : String) : List (String × Reading) := (s.toList.splitOn ' ').filterMap readWord?

/-- The pieces of a text between its newlines. A text that ends with a newline has nothing behind it. -/
def pieces (s : String) : List (List Char) := s.toList.splitOn '\n'

/-! ### What there is to read -/

/-- The tenths of a millisecond of a span, truncated toward zero, and its sign. -/
def Reading.ofTicks (t : Ticks) : Reading := ⟨t.val < 0, (t.val.tdiv 1000).natAbs⟩

/-- The spans that a line shows, with their labels. -/
def spans : Event → List (String × Ticks)
  | .decision e =>
    [("start", e.sampleStart.ticks), ("now", e.now.ticks)] ++
      (match e.decision with
        | .drawAt time => [("draw", time.ticks)]
        | .drawNow | .drop => []) ++
      [("late", e.late), ("early", e.earliness), ("wait", e.waitAvg), ("frame", e.frameAvg), ("render", e.renderAvg)]
  | .quality e => [("late", e.message.late)]
  | .render e => [("took", e.elapsed), ("avg", e.renderAvg), ("throttle", e.throttle)]
  | .notify e => [("throttle", e.throttle)]
  | .reset _ => []

/-- The events that hint at trouble: drops, acknowledgements and resets. -/
def Trouble : Event → Prop
  | .decision e => e.decision = .drop
  | .quality _ | .render _ => False
  | .notify _ | .reset _ => True

instance : DecidablePred Trouble
  | .decision e => inferInstanceAs (Decidable (e.decision = .drop))
  | .quality _ | .render _ => inferInstanceAs (Decidable False)
  | .notify _ | .reset _ => inferInstanceAs (Decidable True)

/-! ### Spans -/

theorem readTenths?_digits {whole : List Char} {tenth : Char} (hne : whole ≠ []) (hwhole : ∀ c ∈ whole, c.isDigit = true)
    (htenth : tenth.isDigit = true) :
    readTenths? (whole ++ ['.', tenth, 'm', 's']) = some (Nat.ofDigitChars 10 (whole ++ [tenth]) 0) := by
  obtain ⟨first, rest, rfl⟩ := List.exists_cons_of_ne_nil hne
  rw [readTenths?, List.takeWhile_append_of_pos hwhole, List.dropWhile_append_of_pos hwhole]
  simp [htenth]

/-- Without a point there is no span. -/
theorem readTenths?_eq_none {s : List Char} (h : '.' ∉ s) : readTenths? s = none := by
  rw [readTenths?]
  split
  · next first rest tenth _ hdrop =>
    exact absurd ((List.dropWhile_sublist _).subset (by rw [hdrop]; simp)) h
  · rfl

theorem readSpan?_eq_none {s : List Char} (h : '.' ∉ s) : readSpan? s = none := by
  rw [readSpan?, readTenths?_eq_none h, readTenths?_eq_none fun hmem => h (List.mem_of_mem_tail hmem)]
  split <;> rfl

/-- The size of a span is printed in whole milliseconds and tenths. -/
theorem toList_span (t : Ticks) :
    (span t).toList = (if t.val < 0 then ['-'] else []) ++
      (Nat.toDigits 10 (t.val.natAbs / 10000) ++ ['.', Nat.digitChar (t.val.natAbs % 10000 / 1000), 'm', 's']) := by
  have hspan : span t = (if t.val < 0 then "-" else "") ++ toString (t.val.natAbs / 10000) ++ "." ++
      toString (t.val.natAbs % 10000 / 1000) ++ "ms" := rfl
  rw [hspan]
  have htenth : t.val.natAbs % 10000 / 1000 < 10 := by omega
  split <;> simp [String.toList_append, Nat.toList_repr, Nat.toDigits_of_lt_base htenth]

theorem isDigit_of_mem {n : Nat} : ∀ c ∈ Nat.toDigits 10 n, c.isDigit = true :=
  fun _ hc => Nat.isDigit_of_mem_toDigits (by decide) (by decide) hc

theorem isDigit_digitChar {n : Nat} (h : n < 10) : (Nat.digitChar n).isDigit = true := by
  apply isDigit_of_mem (n := n)
  rw [Nat.toDigits_of_lt_base h]
  exact List.mem_singleton_self _

theorem readTenths?_size (size : Nat) :
    readTenths? (Nat.toDigits 10 (size / 10000) ++ ['.', Nat.digitChar (size % 10000 / 1000), 'm', 's']) =
      some (size / 1000) := by
  have htenth : size % 10000 / 1000 < 10 := by omega
  rw [readTenths?_digits Nat.toDigits_ne_nil isDigit_of_mem (isDigit_digitChar htenth), Nat.ofDigitChars_append,
    Nat.ofDigitChars_ten_toDigits, Nat.ofDigitChars_cons_digitChar_of_lt_ten htenth, Nat.ofDigitChars_nil]
  congr 1
  omega

/-- A span reads as its tenths of a millisecond. -/
theorem readSpan?_span (t : Ticks) : readSpan? (span t).toList = some (.ofTicks t) := by
  have hsize : (t.val.tdiv 1000).natAbs = t.val.natAbs / 1000 := Int.natAbs_tdiv ..
  rw [toList_span, Reading.ofTicks, hsize]
  by_cases hneg : t.val < 0
  · rw [if_pos hneg]
    simp [readSpan?, readTenths?_size, hneg]
  · -- the first character is a digit and no minus
    have hhead : (Nat.toDigits 10 (t.val.natAbs / 10000)).head? ≠ some '-' := by
      intro hhead
      exact absurd (isDigit_of_mem _ (List.mem_of_mem_head? hhead)) (by decide)
    rw [if_neg hneg, List.nil_append, readSpan?, List.head?_append_of_ne_nil _ Nat.toDigits_ne_nil, if_neg hhead,
      readTenths?_size]
    simp [hneg]

/-- With its sign a reading is the tenths, truncated toward zero. -/
theorem Reading.value_ofTicks (t : Ticks) : (Reading.ofTicks t).value = t.val.tdiv 1000 := by
  simp only [Reading.value, ofTicks, decide_eq_true_eq]
  split
  · next hneg =>
    have hbetween : _ ∧ t.val.tdiv 1000 ≤ 0 := Word.tdiv_between_of_nonpos 1000 (Int.le_of_lt hneg)
    omega
  · next hpos =>
    have hbetween : 0 ≤ t.val.tdiv 1000 ∧ _ := Word.tdiv_between_of_nonneg 1000 (Int.not_lt.1 hpos)
    omega

/-! ### Characters -/

/-- A character that stands within a word, and that is not the point of a span. -/
def Plain (c : Char) : Prop := c ≠ ' ' ∧ c ≠ '\n' ∧ c ≠ '.'

instance : DecidablePred Plain := fun c => inferInstanceAs (Decidable (c ≠ ' ' ∧ c ≠ '\n' ∧ c ≠ '.'))

/-- A text that is a word, or part of one. -/
def isPlain (text : String) : Bool := text.toList.all fun c => Plain c

/-- A text that can stand before a mark. -/
def isLabel (name : String) : Bool := name.toList.all fun c => Plain c ∧ !isMark c

theorem plain_of_isPlain {text : String} (h : isPlain text = true) : ∀ c ∈ text.toList, Plain c := by
  intro c hc
  exact of_decide_eq_true (List.all_eq_true.1 h c hc)

theorem plain_of_isLabel {name : String} (h : isLabel name = true) :
    ∀ c ∈ name.toList, Plain c ∧ isMark c = false := by
  intro c hc
  obtain ⟨hplain, hmark⟩ := of_decide_eq_true (List.all_eq_true.1 h c hc)
  exact ⟨hplain, Bool.not_eq_true' _ ▸ hmark⟩

theorem plain_of_isDigit {c : Char} (h : c.isDigit = true) : Plain c := by
  refine ⟨?_, ?_, ?_⟩ <;> rintro rfl <;> exact absurd h (by decide)

theorem plain_toString (z : Int) : ∀ c ∈ (toString z).toList, Plain c := by
  intro c hc
  change c ∈ z.repr.toList at hc
  rw [Int.repr_eq_if] at hc
  split at hc
  · rw [Nat.toList_repr] at hc
    exact plain_of_isDigit (isDigit_of_mem c hc)
  · rw [String.toList_append, Nat.toList_repr] at hc
    rcases List.mem_append.1 hc with hc | hc
    · obtain rfl := List.mem_singleton.1 hc
      decide
    · exact plain_of_isDigit (isDigit_of_mem c hc)

/-- All of a span but its point is plain. -/
theorem mem_span {t : Ticks} {c : Char} (h : c ∈ (span t).toList) : Plain c ∨ c = '.' := by
  have htenth : t.val.natAbs % 10000 / 1000 < 10 := by omega
  rw [toList_span, List.mem_append, List.mem_append] at h
  rcases h with hsign | hwhole | hend
  · left
    split at hsign
    · obtain rfl := List.mem_singleton.1 hsign
      decide
    · cases hsign
  · exact .inl (plain_of_isDigit (isDigit_of_mem c hwhole))
  · simp only [List.mem_cons, List.not_mem_nil, or_false] at hend
    rcases hend with rfl | rfl | rfl | rfl
    · exact .inr rfl
    · exact .inl (plain_of_isDigit (isDigit_digitChar htenth))
    · exact .inl (by decide)
    · exact .inl (by decide)

/-! ### Words -/

/-- A word of a line. -/
inductive Item where
  | plain (text : String)
  | span (name : String) (mark : Char) (t : Ticks)

namespace Item

def chars : Item → List Char
  | plain text => text.toList
  | span name mark t => name.toList ++ mark :: (Printout.span t).toList

@[simp] theorem chars_plain (text : String) : (plain text).chars = text.toList := rfl

@[simp] theorem chars_span (name : String) (mark : Char) (t : Ticks) :
    (span name mark t).chars = name.toList ++ mark :: (Printout.span t).toList := rfl

def span? : Item → Option (String × Ticks)
  | plain _ => none
  | span name _ t => some (name, t)

/-- There are no points in plain words, and no marks in labels. -/
def Sound : Item → Prop
  | plain text => ∀ c ∈ text.toList, Plain c
  | span name mark _ => isMark mark = true ∧ ∀ c ∈ name.toList, Plain c ∧ isMark c = false

theorem plain_of_isMark {c : Char} (h : isMark c = true) : Plain c := by
  rw [isMark, Bool.or_eq_true, decide_eq_true_eq, decide_eq_true_eq] at h
  rcases h with rfl | rfl <;> decide

/-- No word reaches beyond a blank or a newline. -/
theorem Sound.ne {item : Item} (h : item.Sound) {c : Char} (hc : c ∈ item.chars) : c ≠ ' ' ∧ c ≠ '\n' := by
  have hplain : Plain c → c ≠ ' ' ∧ c ≠ '\n' := fun h => ⟨h.1, h.2.1⟩
  cases item with
  | plain text => exact hplain (h c hc)
  | span name mark t =>
    obtain ⟨hmark, hname⟩ := h
    rw [chars, List.mem_append, List.mem_cons] at hc
    rcases hc with hc | rfl | hc
    · exact hplain (hname c hc).1
    · exact hplain (plain_of_isMark hmark)
    · rcases mem_span hc with hc | rfl
      · exact hplain hc
      · decide

/-- Just the spans read as spans. -/
theorem Sound.readWord? {item : Item} (h : item.Sound) :
    readWord? item.chars = item.span?.map fun (name, t) => (name, .ofTicks t) := by
  cases item with
  | plain text =>
    have hpoint : '.' ∉ (text.toList.dropWhile (!isMark ·)).tail := fun hmem =>
      (h '.' ((List.dropWhile_sublist _).subset (List.mem_of_mem_tail hmem))).2.2 rfl
    rw [Printout.readWord?, chars, readSpan?_eq_none hpoint]
    rfl
  | span name mark t =>
    obtain ⟨hmark, hname⟩ := h
    have hlabel : ∀ c ∈ name.toList, (!isMark c) = true := fun c hc => by rw [(hname c hc).2]; rfl
    rw [Printout.readWord?, chars, List.dropWhile_append_of_pos hlabel, List.takeWhile_append_of_pos hlabel,
      List.dropWhile_cons_of_neg (by simp [hmark]), List.takeWhile_cons_of_neg (by simp [hmark]), List.tail_cons,
      readSpan?_span, List.append_nil, String.ofList_toList]
    rfl

end Item

/-! ### Lines -/

/-- The word for a decision. -/
def decisionItem : Decision → Item
  | .drawNow => .plain "draw"
  | .drawAt time => .span "draw" '@' time.ticks
  | .drop => .plain "DROP"

/-- The words of a line. -/
def items : Event → List Item
  | .decision e =>
    [.plain "[decide]", .plain ("#" ++ toString e.sequence.val), .span "start" '=' e.sampleStart.ticks,
      .span "now" '=' e.now.ticks, decisionItem e.decision, .span "late" '=' e.late, .span "early" '=' e.earliness,
      .span "wait" '=' e.waitAvg, .span "frame" '=' e.frameAvg, .span "render" '=' e.renderAvg,
      .plain ("run=" ++ toString e.normalRun.val)]
  | .quality e =>
    [.plain "[quality]", .plain ("#" ++ toString e.sequence.val), .plain (qualityKind e.message.kind),
      .plain ("proportion=" ++ toString e.message.proportion.val), .span "late" '=' e.message.late,
      .plain (if e.delivered then "ok" else "undelivered")]
  | .render e =>
    [.plain "[render]", .plain (renderKind e.kind), .span "took" '=' e.elapsed] ++
      (if e.accepted ∨ e.kind = .direct then [] else [.plain "spike"]) ++
      [.span "avg" '=' e.renderAvg, .span "throttle" '=' e.throttle]
  | .notify e =>
    [.plain "[notify]", .plain ("proportion=" ++ toString e.proportion.val), .span "throttle" '=' e.throttle]
  | .reset e =>
    [.plain "[reset]", .plain ("drawn=" ++ toString e.framesDrawn.val),
      .plain ("dropped=" ++ toString e.framesDropped.val)]

theorem chars_decisionItem (d : Decision) : (decisionItem d).chars = (decision d).toList := by
  cases d with
  | drawAt time => exact (String.toList_append (s := "draw@")).symm
  | drawNow | drop => rfl

/-- A line is its words with blanks between them. -/
theorem toList_line (e : Event) : (line e).toList = [' '].intercalate ((items e).map Item.chars) := by
  cases e with
  | decision e =>
    have hline : line (.decision e) =
        "[decide] #" ++ toString e.sequence.val ++ " start=" ++ span e.sampleStart.ticks ++ " now=" ++
          span e.now.ticks ++ " " ++ decision e.decision ++ " late=" ++ span e.late ++ " early=" ++ span e.earliness ++
          " " ++ ("wait=" ++ span e.waitAvg ++ " frame=" ++ span e.frameAvg ++ " render=" ++ span e.renderAvg ++
          " run=" ++ toString e.normalRun.val) := rfl
    rw [hline]
    simp [items, chars_decisionItem, List.intercalate, String.toList_append]
  | quality e =>
    have hline : line (.quality e) =
        "[quality] #" ++ toString e.sequence.val ++ " " ++ qualityKind e.message.kind ++ " proportion=" ++
          toString e.message.proportion.val ++ " late=" ++ span e.message.late ++ " " ++
          (if e.delivered then "ok" else "undelivered") := rfl
    rw [hline]
    simp [items, List.intercalate, String.toList_append]
  | render e =>
    have hline : line (.render e) =
        "[render] " ++ renderKind e.kind ++ " took=" ++ span e.elapsed ++
          (if e.accepted ∨ e.kind = .direct then "" else " spike") ++ " avg=" ++ span e.renderAvg ++ " throttle=" ++
          span e.throttle := rfl
    rw [hline, items]
    split <;> simp [List.intercalate, String.toList_append]
  | notify e =>
    have hline : line (.notify e) =
        "[notify] proportion=" ++ toString e.proportion.val ++ " throttle=" ++ span e.throttle := rfl
    rw [hline]
    simp [items, List.intercalate, String.toList_append]
  | reset e =>
    have hline : line (.reset e) =
        "[reset] drawn=" ++ toString e.framesDrawn.val ++ " dropped=" ++ toString e.framesDropped.val := rfl
    rw [hline]
    simp [items, List.intercalate, String.toList_append]

theorem sound_text {text : String} (h : isPlain text = true) : (Item.plain text).Sound := plain_of_isPlain h

/-- A label and a number are a plain word. -/
theorem sound_number {label : String} (h : isPlain label = true) (z : Int) :
    (Item.plain (label ++ toString z)).Sound := by
  intro c hc
  rw [String.toList_append, List.mem_append] at hc
  rcases hc with hc | hc
  · exact plain_of_isPlain h c hc
  · exact plain_toString z c hc

theorem sound_label {name : String} (h : isLabel name = true) (t : Ticks) : (Item.span name '=' t).Sound :=
  ⟨rfl, plain_of_isLabel h⟩

theorem sound_decisionItem (d : Decision) : (decisionItem d).Sound := by
  cases d with
  | drawAt time => exact ⟨rfl, plain_of_isLabel (by decide)⟩
  | drawNow | drop => exact sound_text (by decide)

theorem sound_items (e : Event) : ∀ item ∈ items e, item.Sound := by
  cases e with
  | decision e =>
    simp only [items, List.forall_mem_cons]
    exact ⟨sound_text (by decide), sound_number (by decide) _, sound_label (by decide) _, sound_label (by decide) _,
      sound_decisionItem _, sound_label (by decide) _, sound_label (by decide) _, sound_label (by decide) _,
      sound_label (by decide) _, sound_label (by decide) _, sound_number (by decide) _, List.forall_mem_nil _⟩
  | quality e =>
    have hkind : (Item.plain (qualityKind e.message.kind)).Sound := by
      cases e.message.kind <;> exact sound_text (by decide)
    have hdelivered : (Item.plain (if e.delivered then "ok" else "undelivered")).Sound := by
      cases e.delivered <;> exact sound_text (by decide)
    simp only [items, List.forall_mem_cons]
    exact ⟨sound_text (by decide), sound_number (by decide) _, hkind, sound_number (by decide) _,
      sound_label (by decide) _, hdelivered, List.forall_mem_nil _⟩
  | render e =>
    have hkind : (Item.plain (renderKind e.kind)).Sound := by
      cases e.kind <;> exact sound_text (by decide)
    have hspike : ∀ item ∈ if e.accepted ∨ e.kind = .direct then [] else [Item.plain "spike"], item.Sound := by
      split
      · exact List.forall_mem_nil _
      · exact List.forall_mem_singleton.2 (sound_text (by decide))
    simp only [items, List.forall_mem_append, List.forall_mem_cons]
    exact ⟨⟨⟨sound_text (by decide), hkind, sound_label (by decide) _, List.forall_mem_nil _⟩, hspike⟩,
      sound_label (by decide) _, sound_label (by decide) _, List.forall_mem_nil _⟩
  | notify e =>
    simp only [items, List.forall_mem_cons]
    exact ⟨sound_text (by decide), sound_number (by decide) _, sound_label (by decide) _, List.forall_mem_nil _⟩
  | reset e =>
    simp only [items, List.forall_mem_cons]
    exact ⟨sound_text (by decide), sound_number (by decide) _, sound_number (by decide) _, List.forall_mem_nil _⟩

theorem filterMap_span?_items (e : Event) : (items e).filterMap Item.span? = spans e := by
  cases e with
  | decision e =>
    obtain ⟨_, _, _, _, decision, _, _, _, _, _, _⟩ := e
    cases decision <;> rfl
  | render e =>
    rw [items]
    split <;> rfl
  | quality e | notify e | reset e => rfl

theorem items_ne_nil (e : Event) : items e ≠ [] := by
  cases e <;> exact List.cons_ne_nil _ _

/-- The words of a line come back at its blanks. -/
theorem splitOn_line (e : Event) : (line e).toList.splitOn ' ' = (items e).map Item.chars := by
  rw [toList_line]
  apply List.splitOn_intercalate
  · intro chars hchars hblank
    obtain ⟨item, hitem, rfl⟩ := List.mem_map.1 hchars
    exact ((sound_items e item hitem).ne hblank).1 rfl
  · rw [ne_eq, List.map_eq_nil_iff]
    exact items_ne_nil e

/-- A line reads as the spans of its event. -/
theorem readLine_line (e : Event) : readLine (line e) = (spans e).map fun (label, t) => (label, .ofTicks t) := by
  rw [readLine, splitOn_line, List.filterMap_map, ← filterMap_span?_items, List.map_filterMap]
  exact List.filterMap_congr fun item hitem => (sound_items e item hitem).readWord?

theorem not_mem_intercalate {c separator : Char} (hne : c ≠ separator) {words : List (List Char)}
    (h : ∀ word ∈ words, c ∉ word) : c ∉ [separator].intercalate words := by
  induction words with
  | nil => exact List.not_mem_nil
  | cons word words ih =>
    rw [List.forall_mem_cons] at h
    cases words with
    | nil =>
      rw [List.intercalate_singleton]
      exact h.1
    | cons next words =>
      simp only [List.intercalate_cons_cons, List.mem_append, List.mem_singleton, not_or]
      exact ⟨⟨h.1, hne⟩, ih h.2⟩

theorem newline_not_mem_line (e : Event) : '\n' ∉ (line e).toList := by
  rw [toList_line]
  apply not_mem_intercalate (by decide)
  intro chars hchars hnewline
  obtain ⟨item, hitem, rfl⟩ := List.mem_map.1 hchars
  exact ((sound_items e item hitem).ne hnewline).2 rfl

/-! ### Texts -/

theorem isNotable_iff (e : Event) : isNotable e = true ↔ Trouble e := by
  cases e with
  | decision e => cases h : e.decision <;> simp [isNotable, Trouble, Decision.isDraw, h]
  | quality e | render e | notify e | reset e => simp [isNotable, Trouble]

/-- Every line ends with a newline, and nothing stands behind the last one. -/
theorem flatMap_line (events : List Event) :
    events.flatMap (fun e => (line e ++ "\n").toList) =
      ['\n'].intercalate (events.map (fun e => (line e).toList) ++ [[]]) := by
  induction events with
  | nil => rfl
  | cons e events ih =>
    rw [List.flatMap_cons, ih, List.map_cons, List.cons_append, List.intercalate_cons_of_ne_nil (by simp),
      String.toList_append]
    rfl

theorem pieces_text (dropsOnly : Bool) (events : List Event) :
    pieces (text dropsOnly events) =
      (events.filter fun e => !dropsOnly || isNotable e).map (fun e => (line e).toList) ++ [[]] := by
  rw [pieces, text, String.toList_join, List.flatMap_map, flatMap_line]
  apply List.splitOn_intercalate
  · intro chars hchars
    rcases List.mem_append.1 hchars with hchars | hchars
    · obtain ⟨e, -, rfl⟩ := List.mem_map.1 hchars
      exact newline_not_mem_line e
    · obtain rfl := List.mem_singleton.1 hchars
      exact List.not_mem_nil
  · simp

/-- Lines that are picked by their events. -/
theorem map_filter_zip (lines : Event → List Char) (events : List Event) :
    ((events.zip (events.map lines ++ [[]])).filter fun p : Event × List Char => Trouble p.1).map Prod.snd =
      (events.filter isNotable).map lines := by
  induction events with
  | nil => rfl
  | cons e events ih =>
    rw [List.map_cons, List.cons_append, List.zip_cons_cons, List.filter_cons, List.filter_cons]
    by_cases he : Trouble e
    · simp [he, (isNotable_iff e).2 he, ih]
    · simp [he, mt (isNotable_iff e).1 he, ih]

/-- **Printouts**: a printout has one line for each event, in order, and ends with a newline. A printout of what hints
at trouble has just those lines that belong to drops, acknowledgements and resets. Of every line the spans can be read
back, and each span reads as its tenths of a millisecond, truncated toward zero, with a minus before just the negative
ones. -/
theorem printed_of_events (events : List Event) :
    pieces (text false events) = events.map (fun e => (line e).toList) ++ [[]] ∧
    pieces (text true events) =
      ((events.zip (pieces (text false events))).filter fun p : Event × List Char => Trouble p.1).map Prod.snd ++
        [[]] ∧
    (∀ e, readLine (line e) = (spans e).map fun (label, t) => (label, .ofTicks t)) ∧
    ∀ t : Ticks, readSpan? (span t).toList = some (.ofTicks t) ∧ (Reading.ofTicks t).value = t.val.tdiv 1000 ∧
      ((Reading.ofTicks t).minus = true ↔ t.val < 0) := by
  have hall := pieces_text false events
  have hdrops := pieces_text true events
  simp only [Bool.not_false, Bool.true_or, List.filter_true, Bool.not_true, Bool.false_or] at hall hdrops
  refine ⟨hall, ?_, readLine_line, fun t => ⟨readSpan?_span t, Reading.value_ofTicks t, decide_eq_true_iff⟩⟩
  rw [hall, hdrops, map_filter_zip]

/-- The longest negative span there is. -/
example : span .least = "-922337203685477.5ms" ∧ readSpan? "-922337203685477.5ms".toList = some (.ofTicks .least) := by
  decide

end FramePacing.Printout
