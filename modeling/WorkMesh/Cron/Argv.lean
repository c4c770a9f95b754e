import WorkMesh.Encoding.Runes

/-!
# The command of a shell job

`parseArgv` splits the command of a job into arguments. A backslash takes the
next character as it stands, between quotes too, and a quoted part may stand
anywhere in an argument. The ways to write an argument are given here as
derivations, and so are the commands that end too early.
-/

namespace WorkMesh.Cron

open Encoding

/-! ## The scanner -/

/-- The variables of `parseArgv`. -/
structure ArgvState where
  out : List Runes := []
  b : Runes := []
  quote : Option Char := none
  esc : Bool := false

namespace ArgvState

variable (st : ArgvState)

def flush : ArgvState :=
  if st.b = [] then st else { st with out := st.out ++ [st.b], b := [] }

/-- `WriteRune`. -/
def write (r : Char) : ArgvState := { st with b := st.b ++ [.char r] }

/-- One pass of the loop. -/
def step (r : Char) : ArgvState :=
  if st.esc then { st.write r with esc := false }
  else if r = '\\' then { st with esc := true }
  else
  match st.quote with
  | some quote => if r = quote then { st with quote := none } else st.write r
  | none =>
      if r = '\'' ∨ r = '"' then { st with quote := some r }
      else if r = ' ' ∨ r = '\t' then st.flush
      else st.write r

/-- The loop. A byte that belongs to no character is read as U+FFFD. -/
def scan (s : Runes) : ArgvState := s.foldl (fun st r => st.step r.read) st

end ArgvState

def parseArgv (s : Runes) : Except String (List Runes) :=
  let st := ArgvState.scan {} s
  if st.esc = true ∨ st.quote ≠ none then .error "命令引号未闭合" else .ok st.flush.out

/-! ## Written arguments -/

def isQuote (c : Char) : Bool := c = '\'' || c = '"'

def isBlank (c : Char) : Bool := c = ' ' || c = '\t'

/-- A character between two quotes. -/
inductive Quoted (quote : Char) where
  | plain (r : Rune) (h : r.read ≠ '\\' ∧ r.read ≠ quote)
  | escaped (r : Rune)

/-- A part of an argument. -/
inductive Piece where
  | plain (r : Rune) (h : r.read ≠ '\\' ∧ isQuote r.read = false ∧ isBlank r.read = false)
  | escaped (r : Rune)
  | quoted (quote : Char) (h : isQuote quote = true) (body : List (Quoted quote))

def backslash : Rune := .char '\\'

namespace Quoted

variable {quote : Char}

def text : Quoted quote → Runes
  | plain r _ => [r]
  | escaped r => [backslash, r]

def value : Quoted quote → Runes
  | plain r _ => [r]
  | escaped r => [r]

end Quoted

namespace Piece

/-- How a part is written. -/
def text : Piece → Runes
  | plain r _ => [r]
  | escaped r => [backslash, r]
  | quoted quote _ body => .char quote :: (body.flatMap Quoted.text ++ [.char quote])

/-- What a part stands for. -/
def value : Piece → Runes
  | plain r _ => [r]
  | escaped r => [r]
  | quoted _ _ body => body.flatMap Quoted.value

end Piece

/-- An argument in some quoting. Nothing at all does not write an argument. -/
structure Spelling where
  pieces : List Piece
  nonempty : pieces ≠ []

namespace Spelling

def text (word : Spelling) : Runes := word.pieces.flatMap Piece.text

def value (word : Spelling) : Runes := word.pieces.flatMap Piece.value

end Spelling

/-- A command in which the arguments are written one after another, with blanks between them. -/
inductive Written : List Runes → Runes → Prop where
  | nil : Written [] []
  | last (word : Spelling) : Written [word.value] word.text
  | blank {args : List Runes} {text : Runes} (r : Rune) (hr : isBlank r.read = true)
      (tail : Written args text) : Written args (r :: text)
  | cons {args : List Runes} {text : Runes} (word : Spelling) (r : Rune)
      (hr : isBlank r.read = true) (tail : Written args text) :
      Written (word.value :: args) (word.text ++ r :: text)

/-- A part of a command between arguments or inside one. -/
inductive Token where
  | blank (r : Rune) (h : isBlank r.read = true)
  | piece (p : Piece)

def Token.text : Token → Runes
  | blank r _ => [r]
  | piece p => p.text

/-- A command that ends behind a backslash or inside quotes. -/
def Unterminated (s : Runes) : Prop :=
  ∃ (tokens : List Token) (rest : Runes), s = tokens.flatMap Token.text ++ rest ∧
    (rest = [backslash] ∨
      ∃ (quote : Char) (_ : isQuote quote = true) (body : List (Quoted quote)),
        rest = .char quote :: body.flatMap Quoted.text ∨
          rest = .char quote :: (body.flatMap Quoted.text ++ [backslash]))

/-! ## Scanning -/

namespace ArgvState

variable {st : ArgvState}

theorem scan_append (st : ArgvState) (s t : Runes) : st.scan (s ++ t) = (st.scan s).scan t :=
  List.foldl_append

theorem scan_cons (st : ArgvState) (r : Rune) (s : Runes) :
    st.scan (r :: s) = (st.step r.read).scan s := rfl

@[simp] theorem scan_nil (st : ArgvState) : st.scan [] = st := rfl

/-- Between two characters of an argument, outside quotes. -/
def Open (st : ArgvState) : Prop := st.esc = false ∧ st.quote = none

/-- Between two characters inside quotes. -/
def Within (quote : Char) (st : ArgvState) : Prop := st.esc = false ∧ st.quote = some quote

def more (st : ArgvState) (s : Runes) : ArgvState := { st with b := st.b ++ s }

@[simp] theorem more_nil (st : ArgvState) : st.more [] = st := by simp [more]

@[simp] theorem more_more (st : ArgvState) (s t : Runes) : (st.more s).more t = st.more (s ++ t) := by
  simp [more]

theorem Open.more (h : st.Open) (s : Runes) : (st.more s).Open := h

theorem Within.more {quote : Char} (h : st.Within quote) (s : Runes) : (st.more s).Within quote := h

/-- A backslash and the character behind it, in quotes or not. -/
theorem scan_escaped (h : st.esc = false) (r : Rune) :
    st.scan [backslash, r] = st.more [.char r.read] := by
  have hfirst : st.step backslash.read = { st with esc := true } := by
    simp [step, h, backslash, Rune.read]
  rw [scan_cons, scan_cons, hfirst, scan_nil]
  simp [step, write, ArgvState.more, h]

theorem scan_quoted_one {quote : Char} (h : st.Within quote) (q : Quoted quote) :
    st.scan q.text = st.more (q.value.throughJson) := by
  cases q with
  | plain r hr =>
      simp [Quoted.text, Quoted.value, scan_cons, step, h.1, h.2, hr.1, hr.2, write,
        ArgvState.more, Runes.throughJson]
  | escaped r => exact scan_escaped h.1 r

theorem scan_quoted {quote : Char} (body : List (Quoted quote)) (h : st.Within quote) :
    st.scan (body.flatMap Quoted.text) =
      st.more (Runes.throughJson (body.flatMap Quoted.value)) := by
  induction body generalizing st with
  | nil => simp [Runes.throughJson]
  | cons q body ih =>
      rw [List.flatMap_cons, scan_append, scan_quoted_one h, ih (h.more _), more_more,
        List.flatMap_cons, Runes.throughJson, Runes.throughJson, Runes.throughJson,
        List.map_append]

theorem step_quote (h : st.Open) {quote : Char} (hquote : isQuote quote = true) :
    st.step quote = { st with quote := some quote } := by
  have hchars : quote = '\'' ∨ quote = '"' := by simpa [isQuote] using hquote
  have hslash : quote ≠ '\\' := by rcases hchars with rfl | rfl <;> decide
  simp [step, h.1, h.2, hslash, hchars]

/-- The quote that ends a quoted part. -/
theorem step_unquote {quote : Char} (h : st.Within quote) (hquote : isQuote quote = true) :
    st.step quote = { st with quote := none } := by
  have hchars : quote = '\'' ∨ quote = '"' := by simpa [isQuote] using hquote
  have hslash : quote ≠ '\\' := by rcases hchars with rfl | rfl <;> decide
  simp [step, h.1, h.2, hslash]

theorem scan_piece (h : st.Open) (p : Piece) : st.scan p.text = st.more p.value.throughJson := by
  cases p with
  | plain r hr =>
      have hquote : ¬(r.read = '\'' ∨ r.read = '"') := by simpa [isQuote] using hr.2.1
      have hblank : ¬(r.read = ' ' ∨ r.read = '\t') := by simpa [isBlank] using hr.2.2
      simp [Piece.text, Piece.value, scan_cons, step, h.1, h.2, hr.1, hquote, hblank, write,
        ArgvState.more, Runes.throughJson]
  | escaped r => exact scan_escaped h.1 r
  | quoted quote hquote body =>
      have hwithin : ({ st with quote := some quote } : ArgvState).Within quote := ⟨h.1, rfl⟩
      rw [Piece.text, scan_cons, scan_append, Rune.read, step_quote h hquote,
        scan_quoted body hwithin, scan_cons, scan_nil, Rune.read,
        step_unquote (hwithin.more _) hquote]
      simp [ArgvState.more, Piece.value, h.2]

theorem scan_pieces (pieces : List Piece) (h : st.Open) :
    st.scan (pieces.flatMap Piece.text) =
      st.more (Runes.throughJson (pieces.flatMap Piece.value)) := by
  induction pieces generalizing st with
  | nil => simp [Runes.throughJson]
  | cons p pieces ih =>
      rw [List.flatMap_cons, scan_append, scan_piece h, ih (h.more _), more_more,
        List.flatMap_cons, Runes.throughJson, Runes.throughJson, Runes.throughJson,
        List.map_append]

theorem scan_spelling (h : st.Open) (word : Spelling) :
    st.scan word.text = st.more word.value.throughJson := scan_pieces word.pieces h

theorem step_blank (h : st.Open) {r : Rune} (hr : isBlank r.read = true) :
    st.step r.read = st.flush := by
  have hblank : r.read = ' ' ∨ r.read = '\t' := by simpa [isBlank] using hr
  have hother : r.read ≠ '\\' ∧ ¬(r.read = '\'' ∨ r.read = '"') := by
    rcases hblank with hc | hc <;> rw [hc] <;> decide
  simp [step, h.1, h.2, hother.1, hother.2, hblank]

theorem Open.flush (h : st.Open) : st.flush.Open := by
  rw [ArgvState.flush]
  split_ifs <;> exact h

@[simp] theorem flush_b (st : ArgvState) : st.flush.b = [] := by
  rw [flush]
  split_ifs with hnil
  · exact hnil
  · rfl

theorem flush_out (st : ArgvState) :
    st.flush.out = st.out ++ [st.b].filter (· ≠ []) := by
  rw [flush]
  split_ifs with hnil <;> simp [hnil]

end ArgvState

/-- What is left of the arguments of a command: each as it is read, without those that are
empty. -/
def argsOf (args : List Runes) : List Runes := (args.map Runes.throughJson).filter (· ≠ [])

/-- The arguments of a written command, behind those that were read before it. -/
theorem scan_written {args : List Runes} {s : Runes} (h : Written args s) {st : ArgvState}
    (hopen : st.Open) (hb : st.b = []) :
    (st.scan s).Open ∧ (st.scan s).flush.out = st.out ++ argsOf args := by
  induction h generalizing st with
  | nil => exact ⟨hopen, by simp [ArgvState.flush_out, hb, argsOf]⟩
  | last word =>
      rw [ArgvState.scan_spelling hopen]
      exact ⟨hopen.more _, by simp [ArgvState.flush_out, ArgvState.more, hb, argsOf]⟩
  | blank r hr tail ih =>
      rw [ArgvState.scan_cons, ArgvState.step_blank hopen hr]
      have hflush : st.flush.out = st.out := by simp [ArgvState.flush_out, hb]
      rw [← hflush]
      exact ih hopen.flush (ArgvState.flush_b st)
  | @cons args s word r hr tail ih =>
      rw [ArgvState.scan_append, ArgvState.scan_spelling hopen, ArgvState.scan_cons,
        ArgvState.step_blank (hopen.more _) hr]
      obtain ⟨hlast, hout⟩ := ih (hopen.more _).flush (ArgvState.flush_b _)
      refine ⟨hlast, ?_⟩
      rw [hout, ArgvState.flush_out]
      simp [ArgvState.more, hb, argsOf, List.filter_cons, List.append_assoc]
      split_ifs <;> simp_all

theorem parseArgv_of_open {s : Runes} (h : (ArgvState.scan {} s).Open) :
    parseArgv s = .ok (ArgvState.scan {} s).flush.out := by
  simp [parseArgv, h.1, h.2]

theorem parseArgv_written {args : List Runes} {s : Runes} (h : Written args s) :
    parseArgv s = .ok (argsOf args) := by
  obtain ⟨hopen, hout⟩ := @scan_written args s h {} ⟨rfl, rfl⟩ rfl
  rw [parseArgv_of_open hopen, hout]
  rfl

/-! ## Commands that end too early -/

/-- What has been read up to a point of a command, by the state of the scanner. -/
inductive Reached : Runes → ArgvState → Prop where
  | outside {s : Runes} {st : ArgvState} (hopen : st.Open) (tokens : List Token)
      (hs : s = tokens.flatMap Token.text) : Reached s st
  | escape {s : Runes} {st : ArgvState} (hesc : st.esc = true) (hquote : st.quote = none)
      (tokens : List Token) (hs : s = tokens.flatMap Token.text ++ [backslash]) : Reached s st
  | inside {s : Runes} {st : ArgvState} (quote : Char) (hwithin : st.Within quote)
      (hquote : isQuote quote = true) (tokens : List Token) (body : List (Quoted quote))
      (hs : s = tokens.flatMap Token.text ++ .char quote :: body.flatMap Quoted.text) :
      Reached s st
  | insideEscape {s : Runes} {st : ArgvState} (quote : Char) (hesc : st.esc = true)
      (hst : st.quote = some quote) (hquote : isQuote quote = true) (tokens : List Token)
      (body : List (Quoted quote))
      (hs : s = tokens.flatMap Token.text ++
        .char quote :: (body.flatMap Quoted.text ++ [backslash])) : Reached s st

/-- A character that reads as one of ASCII is that one. -/
theorem eq_char {r : Rune} {c : Char} (h : r.read = c) (hc : c ≠ '\ufffd') : r = .char c := by
  cases r with
  | char d => rw [← h]; rfl
  | stray b => exact absurd h.symm hc

theorem Reached.step {s : Runes} {st : ArgvState} (h : Reached s st) (r : Rune) :
    Reached (s ++ [r]) (st.step r.read) := by
  cases h with
  | outside hopen tokens hs =>
      subst hs
      by_cases hslash : r.read = '\\'
      · obtain rfl : r = backslash := eq_char hslash (by decide)
        refine .escape ?_ ?_ tokens rfl
        · simp [ArgvState.step, hopen.1, backslash, Rune.read]
        · simp [ArgvState.step, hopen.1, hopen.2, backslash, Rune.read]
      cases hquote : isQuote r.read with
      | true =>
          have hr : r = .char r.read := eq_char rfl fun hmark => by rw [hmark] at hquote; cases hquote
          rw [ArgvState.step_quote hopen hquote]
          refine .inside r.read ⟨hopen.1, rfl⟩ hquote tokens [] ?_
          rw [← hr]
          rfl
      | false =>
          cases hblank : isBlank r.read with
          | true =>
              rw [ArgvState.step_blank hopen hblank]
              exact .outside hopen.flush (tokens ++ [.blank r hblank]) (by simp [Token.text])
          | false =>
              have hplain := ArgvState.scan_piece hopen (.plain r ⟨hslash, hquote, hblank⟩)
              rw [Piece.text, ArgvState.scan_cons, ArgvState.scan_nil] at hplain
              rw [hplain]
              exact .outside (hopen.more _) (tokens ++ [.piece (.plain r ⟨hslash, hquote, hblank⟩)])
                (by simp [Token.text, Piece.text])
  | escape hesc hquote tokens hs =>
      refine .outside ⟨?_, ?_⟩ (tokens ++ [.piece (.escaped r)]) ?_
      · simp [ArgvState.step, hesc]
      · simp [ArgvState.step, hesc, ArgvState.write, hquote]
      · simp [hs, Token.text, Piece.text]
  | inside quote hwithin hquote tokens body hs =>
      subst hs
      by_cases hslash : r.read = '\\'
      · obtain rfl : r = backslash := eq_char hslash (by decide)
        refine .insideEscape quote ?_ ?_ hquote tokens body (by simp)
        · simp [ArgvState.step, hwithin.1, backslash, Rune.read]
        · simp [ArgvState.step, hwithin.1, hwithin.2, backslash, Rune.read]
      by_cases hend : r.read = quote
      · have hr : r = .char quote := eq_char hend fun hmark => by rw [hmark] at hquote; cases hquote
        rw [hend, ArgvState.step_unquote hwithin hquote]
        refine .outside ⟨hwithin.1, rfl⟩ (tokens ++ [.piece (.quoted quote hquote body)]) ?_
        simp [Token.text, Piece.text, hr]
      · have hplain := ArgvState.scan_quoted_one hwithin (.plain r ⟨hslash, hend⟩)
        rw [Quoted.text, ArgvState.scan_cons, ArgvState.scan_nil] at hplain
        rw [hplain]
        exact .inside quote (hwithin.more _) hquote tokens (body ++ [.plain r ⟨hslash, hend⟩])
          (by simp [Quoted.text])
  | insideEscape quote hesc hst hquote tokens body hs =>
      refine .inside quote ⟨?_, ?_⟩ hquote tokens (body ++ [.escaped r]) ?_
      · simp [ArgvState.step, hesc]
      · simp [ArgvState.step, hesc, ArgvState.write, hst]
      · simp [hs, Quoted.text]

theorem reached_scan (s : Runes) : Reached s (ArgvState.scan {} s) := by
  induction s using List.reverseRecOn with
  | nil => exact .outside ⟨rfl, rfl⟩ [] rfl
  | append_singleton s r ih =>
      rw [ArgvState.scan_append, ArgvState.scan_cons, ArgvState.scan_nil]
      exact ih.step r

/-- A command that is refused ends behind a backslash or inside quotes. -/
theorem unterminated_of_error {s : Runes} {message : String} (h : parseArgv s = .error message) :
    Unterminated s := by
  cases reached_scan s with
  | outside hopen tokens hs =>
      rw [parseArgv_of_open hopen] at h
      cases h
  | escape hesc hquote tokens hs => exact ⟨tokens, _, hs, .inl rfl⟩
  | inside quote hwithin hquote tokens body hs =>
      exact ⟨tokens, _, hs, .inr ⟨quote, hquote, body, .inl rfl⟩⟩
  | insideEscape quote hesc hst hquote tokens body hs =>
      exact ⟨tokens, _, hs, .inr ⟨quote, hquote, body, .inr rfl⟩⟩

/-! ## Which arguments come back -/

theorem argsOf_eq_self {args : List Runes} :
    argsOf args = args ↔ ∀ arg ∈ args, arg ≠ [] ∧ arg.Whole := by
  have hself : args.map Runes.throughJson = args ↔ ∀ arg ∈ args, arg.Whole := by
    simpa [Runes.Whole] using
      List.map_inj_left (f := Runes.throughJson) (g := id) (l := args)
  constructor
  · intro h arg harg
    have hlength : ((args.map Runes.throughJson).filter (· ≠ [])).length =
        (args.map Runes.throughJson).length := by
      rw [List.length_map]
      exact congrArg List.length h
    have hall := List.filter_eq_self.mpr (List.length_filter_eq_length_iff.mp hlength)
    have hmap : args.map Runes.throughJson = args := hall.symm.trans h
    have hwhole : arg.Whole := hself.mp hmap arg harg
    refine ⟨?_, hwhole⟩
    have hkept : arg ∈ argsOf args := h.symm ▸ harg
    simpa using (List.mem_filter.mp hkept).2
  · intro h
    have hmap : args.map Runes.throughJson = args :=
      hself.mpr fun arg harg => (h arg harg).2
    rw [argsOf, hmap, List.filter_eq_self]
    intro arg harg
    simpa using (h arg harg).1

/-- A command is refused only if it ends too early. One that writes arguments, in any quoting,
gives them back exactly when none of them is empty and all are valid UTF-8. -/
theorem parseArgv_inverts_iff (args : List Runes) (s : Runes) :
    (∀ message, parseArgv s = .error message → Unterminated s) ∧
      (Written args s → (parseArgv s = .ok args ↔ ∀ arg ∈ args, arg ≠ [] ∧ arg.Whole)) := by
  refine ⟨fun message => unterminated_of_error, fun h => ?_⟩
  rw [parseArgv_written h, ← argsOf_eq_self]
  exact ⟨Except.ok.inj, congrArg Except.ok⟩

/-- `'a b'c \"`, with a quoted part, a plain one and an escaped one. -/
def quotedCommand : Runes := Runes.ofText "'a b'c \\\""

theorem written_quotedCommand :
    Written [Runes.ofText "a bc", Runes.ofText "\""] quotedCommand := by
  have hlast := Written.last ⟨[.escaped (.char '"')], by simp⟩
  have hfirst := Written.cons ⟨[.quoted '\'' rfl [.plain (.char 'a') (by decide),
    .plain (.char ' ') (by decide), .plain (.char 'b') (by decide)],
    .plain (.char 'c') (by decide)], by simp⟩ (.char ' ') rfl hlast
  exact hfirst

theorem parseArgv_inverts_quotedCommand :
    parseArgv quotedCommand = .ok [Runes.ofText "a bc", Runes.ofText "\""] :=
  ((parseArgv_inverts_iff _ _).2 written_quotedCommand).mpr (by decide)

/-- `a ''`: the second argument is empty. -/
def emptyArgument : Runes := Runes.ofText "a ''"

theorem written_emptyArgument : Written [Runes.ofText "a", []] emptyArgument := by
  have hlast := Written.last ⟨[.quoted '\'' rfl []], by simp⟩
  have hfirst := Written.cons ⟨[.plain (.char 'a') (by decide)], by simp⟩ (.char ' ') rfl hlast
  exact hfirst

theorem parseArgv_emptyArgument :
    ¬∀ args s, Written args s → parseArgv s = .ok args := by
  intro h
  have hlost := h _ _ written_emptyArgument
  rw [parseArgv_written written_emptyArgument] at hlost
  have hargs := Except.ok.inj hlost
  simp [argsOf, Runes.throughJson, Runes.ofText] at hargs


end WorkMesh.Cron
