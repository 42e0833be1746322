import CommandShell.Proofs.Quiet
import CommandShell.Proofs.Reading
import Mathlib.Logic.Function.Iterate

/-!
# Lines from noisy input

Successive reads of a quiet editor give out the lines of its input one by one, and then that there
are no more. Bytes that mean nothing to the editor may stand anywhere among them, and so may
characters that are erased right away: `quiet_reads_lines`.

`given` tells what lines some bytes hold, without keys and screens. Reading is shown to agree with
it one line at a time, and noise is shown to make no difference to it.
-/

namespace CommandShell.Editor

/-! ## Input -/

/-- A text that can be typed into a line of a quiet editor, and the byte that ends the line. -/
structure EndedLine where
  text : String
  ending : UInt8
  typed : ∀ ch ∈ text.toList, IsTyped ch
  ends : ending = lineFeed ∨ ending = carriageReturn

/-- The bytes of a line. -/
def EndedLine.bytes (line : EndedLine) : Bytes := Text.encode line.text ++ [line.ending]

/-- Lines, and the text behind the last of them, which nothing ends. -/
structure Input where
  lines : List EndedLine
  last : String
  typed : ∀ ch ∈ last.toList, IsTyped ch

/-- The bytes of an input. -/
def Input.bytes (input : Input) : Bytes :=
  input.lines.flatMap EndedLine.bytes ++ Text.encode input.last

/-- What the lines of an input are given out as. The text behind them is given out as a line, unless
there is none. -/
def Input.outcomes (input : Input) : List ReadOutcome :=
  input.lines.map (fun line => outcomeOf line.text.toList) ++
    if input.last = "" then [] else [.line input.last]

/-! ## Noise -/

/-- Whether a byte is no key that a quiet editor knows: it is not ASCII, or it is a control byte
that means nothing. -/
def IsNoise (b : UInt8) : Prop :=
  0x80 ≤ b ∨ (b < 0x20 ∧ b ∉ [tab, lineFeed, carriageReturn, endOfTransmission, backspace])

instance : DecidablePred IsNoise := fun _ => inferInstanceAs (Decidable (_ ∨ _))

/-- Whether a byte types a character into a line of a quiet editor. -/
def IsTyping (b : UInt8) : Prop := isPrintable b = true ∨ b = tab

instance : DecidablePred IsTyping := fun _ => inferInstanceAs (Decidable (_ ∨ _))

/-- Whether bytes are others with noise among them: bytes that mean nothing, and characters that are
erased right away, put in anywhere and one after the other. -/
inductive Noisy (plain : Bytes) : Bytes → Prop
  | plain : Noisy plain plain
  | ignored (front back : Bytes) {b : UInt8} : Noisy plain (front ++ back) → IsNoise b →
      Noisy plain (front ++ ([b] ++ back))
  | erased (front back : Bytes) {b erase : UInt8} : Noisy plain (front ++ back) →
      IsTyping b → erase = backspace ∨ erase = delete →
        Noisy plain (front ++ ([b, erase] ++ back))

theorem IsNoise.ne {b k : UInt8} (h : IsNoise b) (hk : ¬IsNoise k) : b ≠ k := by
  rintro rfl
  exact hk h

theorem IsTyping.ne {b k : UInt8} (h : IsTyping b) (hk : ¬IsTyping k) : b ≠ k := by
  rintro rfl
  exact hk h

/-- Whether a byte ends a line or all lines. -/
def stops (b : UInt8) : Bool := endsLine (.byte b) || b = endOfTransmission

theorem stops_eq_false {b : UInt8} :
    stops b = false ↔ b ≠ lineFeed ∧ b ≠ carriageReturn ∧ b ≠ endOfTransmission := by
  simp [stops, endsLine, and_assoc]

/-- Bytes that mean nothing do not stop. -/
theorem IsNoise.not_stops {b : UInt8} (h : IsNoise b) : stops b = false :=
  stops_eq_false.mpr ⟨h.ne (by decide), h.ne (by decide), h.ne (by decide)⟩

/-- Bytes that type do not stop. -/
theorem IsTyping.not_stops {b : UInt8} (h : IsTyping b) : stops b = false :=
  stops_eq_false.mpr ⟨h.ne (by decide), h.ne (by decide), h.ne (by decide)⟩

/-- Bytes that erase do not stop. -/
theorem not_stops_of_erases {b : UInt8} (h : b = backspace ∨ b = delete) : stops b = false := by
  rcases h with rfl | rfl <;> rfl

/-- Noise brings no end of a line. -/
theorem Noisy.filter_stops {plain bytes : Bytes} (h : Noisy plain bytes) :
    bytes.filter stops = plain.filter stops := by
  induction h with
  | plain => rfl
  | ignored front back _ hnoise ih =>
    rw [← ih]
    simp [hnoise.not_stops]
  | erased front back _ hb herase ih =>
    rw [← ih]
    simp [hb.not_stops, not_stops_of_erases herase]

/-! ## Lines among bytes -/

/-- What a byte that does not stop makes of a text. -/
def edit (buffer : List Char) (b : UInt8) : List Char :=
  if b = delete ∨ b = backspace then buffer.dropLast
  else if IsTyping b then buffer ++ [Char.ofNat b.toNat]
  else buffer

/-- What lines are given out of some bytes, the first of which has been started with a text. -/
def given : List Char → Bytes → List ReadOutcome
  | buffer, [] => if buffer.isEmpty then [] else [outcomeOf buffer]
  | buffer, b :: bytes =>
    if endsLine (.byte b) then outcomeOf buffer :: given [] bytes else given (edit buffer b) bytes

/-- The bytes behind the first line. -/
def behindLine : Bytes → Bytes
  | [] => []
  | b :: bytes => if endsLine (.byte b) then bytes else behindLine bytes

/-- The bytes behind the first line are the last ones. -/
theorem behindLine_suffix (bytes : Bytes) : behindLine bytes <:+ bytes := by
  induction bytes with
  | nil => exact List.suffix_refl _
  | cons b bytes ih =>
    rw [behindLine]
    split
    · exact List.suffix_cons b bytes
    · exact ih.trans (List.suffix_cons b bytes)

/-- The lines behind the first one are those of the bytes behind it. -/
theorem tail_given (buffer : List Char) (bytes : Bytes) :
    (given buffer bytes).tail = given [] (behindLine bytes) := by
  induction bytes generalizing buffer with
  | nil =>
    rw [given, behindLine]
    split <;> rfl
  | cons b bytes ih =>
    rw [given, behindLine]
    split
    · rfl
    · exact ih _

/-- A byte that does not stop changes the text of the first line. -/
theorem given_of_not_stops {b : UInt8} (h : stops b = false) (buffer : List Char) (bytes : Bytes) :
    given buffer (b :: bytes) = given (edit buffer b) bytes := by
  have hend : endsLine (.byte b) = false := (Bool.or_eq_false_iff.mp h).1
  rw [given, hend]
  rfl

/-- What makes no difference at the start makes none behind any bytes: what is read before it only
settles the text that it comes upon. -/
theorem given_insert {inserted back : Bytes}
    (h : ∀ buffer, given buffer (inserted ++ back) = given buffer back) (buffer : List Char)
    (front : Bytes) :
    given buffer (front ++ (inserted ++ back)) = given buffer (front ++ back) := by
  induction front generalizing buffer with
  | nil => exact h buffer
  | cons b front ih =>
    rw [List.cons_append, List.cons_append, given, given, ih, ih]

/-- A byte that means nothing changes no text. -/
theorem edit_of_isNoise {b : UInt8} (h : IsNoise b) (buffer : List Char) :
    edit buffer b = buffer := by
  have hprint : isPrintable b = false := by
    rw [isPrintable, Bool.and_eq_false_iff, decide_eq_false_iff_not, decide_eq_false_iff_not]
    rcases h with h | ⟨h, -⟩
    · exact .inr fun hle => absurd (UInt8.le_trans h hle) (by decide)
    · exact .inl (UInt8.not_le.mpr h)
  have htyping : ¬IsTyping b := by
    rintro (htrue | htab)
    · rw [hprint] at htrue
      cases htrue
    · exact h.ne (by decide) htab
  rw [edit, if_neg (not_or.mpr ⟨h.ne (by decide), h.ne (by decide)⟩), if_neg htyping]

/-- A byte that types a character adds it to the text. -/
theorem edit_of_isTyping {b : UInt8} (h : IsTyping b) (buffer : List Char) :
    edit buffer b = buffer ++ [Char.ofNat b.toNat] := by
  rw [edit, if_neg (not_or.mpr ⟨h.ne (by decide), h.ne (by decide)⟩), if_pos h]

/-- A byte that erases takes off the last character. -/
theorem edit_of_erases {b : UInt8} (h : b = backspace ∨ b = delete) (buffer : List Char) :
    edit buffer b = buffer.dropLast := by
  rw [edit, if_pos h.symm]

/-- Noise makes no difference to the lines. -/
theorem Noisy.given_eq {plain bytes : Bytes} (h : Noisy plain bytes) :
    given [] bytes = given [] plain := by
  induction h with
  | plain => rfl
  | ignored front back _ hnoise ih =>
    refine (given_insert (fun buffer => ?_) [] front).trans ih
    rw [List.singleton_append, given_of_not_stops hnoise.not_stops, edit_of_isNoise hnoise]
  | erased front back _ hb herase ih =>
    refine (given_insert (fun buffer => ?_) [] front).trans ih
    rw [List.cons_append, List.singleton_append, given_of_not_stops hb.not_stops,
      edit_of_isTyping hb, given_of_not_stops (not_stops_of_erases herase), edit_of_erases herase,
      List.dropLast_concat]

/-! ## The lines of an input -/

/-- Text that can be typed is written with the bytes that type it. -/
theorem typing_of_typed {text : String} (h : ∀ ch ∈ text.toList, IsTyped ch) :
    (∀ b ∈ Text.encode text, IsTyping b) ∧
      (Text.encode text).map (fun b => Char.ofNat b.toNat) = text.toList := by
  rw [Text.encode_eq_flatMap]
  generalize text.toList = text at h
  induction text with
  | nil => simp
  | cons ch text ih =>
    obtain ⟨htyping, hmap⟩ := ih fun d hd => h d (by simp [hd])
    have hle : ch.toNat ≤ 0x7e := by
      rcases h ch (by simp) with rfl | ⟨-, hhigh⟩
      · decide
      · exact hhigh
    have hcode : ch.toNat.toUInt8.toNat = ch.toNat := by
      simp
      omega
    have hbyte : IsTyping ch.toNat.toUInt8 := by
      rcases h ch (by simp) with rfl | ⟨hlow, -⟩
      · exact .inr rfl
      · exact .inl (by simpa [isPrintable, UInt8.le_iff_toNat_le, hcode] using ⟨hlow, hle⟩)
    rw [List.flatMap_cons, Text.utf8EncodeChar_of_le (by omega), List.singleton_append]
    refine ⟨List.forall_mem_cons.mpr ⟨hbyte, htyping⟩, ?_⟩
    rw [List.map_cons, hmap, hcode, Char.ofNat_toNat]

/-- Bytes that type characters add them to the text that a line has been started with. -/
theorem given_typing {typing : Bytes} (h : ∀ b ∈ typing, IsTyping b) (buffer : List Char)
    (more : Bytes) :
    given buffer (typing ++ more) =
      given (buffer ++ typing.map fun b => Char.ofNat b.toNat) more := by
  induction typing generalizing buffer with
  | nil => simp
  | cons b typing ih =>
    have hb : IsTyping b := h b (by simp)
    rw [List.cons_append, given_of_not_stops hb.not_stops, edit_of_isTyping hb,
      ih fun d hd => h d (by simp [hd]), List.append_assoc, List.map_cons, List.singleton_append]

theorem EndedLine.endsLine_ending (line : EndedLine) : endsLine (.byte line.ending) = true := by
  simpa [endsLine] using line.ends

/-- The lines among the bytes of an input are those of the input. -/
theorem Input.given_bytes (input : Input) : given [] input.bytes = input.outcomes := by
  obtain ⟨lines, last, hlast⟩ := input
  rw [bytes, outcomes]
  induction lines with
  | nil =>
    obtain ⟨htyping, hmap⟩ := typing_of_typed hlast
    have hgiven := given_typing htyping [] []
    rw [hmap, List.append_nil, List.nil_append, given] at hgiven
    simp only [List.flatMap_nil, List.nil_append, hgiven, List.map_nil]
    by_cases hempty : last = ""
    · simp [hempty]
    · simp [hempty, outcomeOf]
  | cons line lines ih =>
    obtain ⟨htyping, hmap⟩ := typing_of_typed line.typed
    rw [List.flatMap_cons, EndedLine.bytes, List.append_assoc, List.append_assoc,
      given_typing htyping, hmap, List.singleton_append, List.nil_append, given,
      if_pos line.endsLine_ending, ih]
    rfl

/-- What stops among the bytes of an input are the ends of its lines. -/
theorem Input.filter_stops (input : Input) :
    input.bytes.filter stops = input.lines.map EndedLine.ending := by
  have hencode {text : String} (h : ∀ ch ∈ text.toList, IsTyped ch) :
      (Text.encode text).filter stops = [] :=
    List.filter_eq_nil_iff.mpr fun b hb =>
      Bool.eq_false_iff.mp ((typing_of_typed h).1 b hb).not_stops
  obtain ⟨lines, last, hlast⟩ := input
  rw [bytes, List.filter_append, hencode hlast, List.append_nil]
  induction lines with
  | nil => rfl
  | cons line lines ih =>
    have hstops : stops line.ending = true := by simp [stops, line.endsLine_ending]
    rw [List.flatMap_cons, List.filter_append, ih, EndedLine.bytes, List.filter_append,
      hencode line.typed, List.nil_append, List.filter_singleton, hstops]
    rfl

/-! ## Reading them -/

variable {c : Context} {line : LineState} {screen : Screen}

/-- A byte that does not stop changes the text, and a quiet editor shows nothing of it. -/
theorem quiet_press (hp : line.pending = .nothing) {b : UInt8} (h : stops b = false) :
    ∃ line', quiet.press c line screen (.byte b) = .goOn line' screen ∧
      line'.pending = .nothing ∧ line'.buffer = edit line.buffer b := by
  obtain ⟨hfeed, hreturn, hquit⟩ := stops_eq_false.mp h
  rw [press_byte hp]
  cases byte_effect c line b with
  | ends hb => exact absurd hb (not_or.mpr ⟨hfeed, hreturn⟩)
  | quits hb => exact absurd hb hquit
  | erases hb _ hpress => exact ⟨_, hpress quiet screen, hp, by rw [edit, if_pos hb]⟩
  | completes hb hpress =>
    subst hb
    exact ⟨_, hpress quiet screen, hp, rfl⟩
  | begins hb hpress =>
    subst hb
    exact ⟨_, hpress quiet screen, hp, rfl⟩
  | types hb hpress =>
    have herase : ¬(b = delete ∨ b = backspace) :=
      not_or.mpr ⟨ne_of_isPrintable hb (by decide), ne_of_isPrintable hb (by decide)⟩
    exact ⟨_, hpress quiet screen, hp, by rw [edit, if_neg herase, if_pos (.inl hb)]⟩
  | keeps _ _ herases htypes hpress =>
    refine ⟨_, hpress quiet screen, hp, ?_⟩
    by_cases hb : b = delete ∨ b = backspace
    · simp [edit, hb, herases hb]
    · rw [edit, if_neg hb, if_neg (show ¬IsTyping b from htypes)]

/-- A byte that ends a line gives it out. -/
theorem quiet_press_end (hp : line.pending = .nothing) {b : UInt8}
    (hend : endsLine (.byte b) = true) :
    quiet.press c line screen (.byte b) = .stop (.ok (outcomeOf line.buffer)) screen := by
  have hends : b = lineFeed ∨ b = carriageReturn := by simpa [endsLine] using hend
  rw [press_byte hp, pressByte_end hends]
  rfl

/-- A quiet editor that reads on from a line gives out the first line, and leaves the bytes behind
it. -/
theorem quiet_readFrom (hp : line.pending = .nothing) {bytes : Bytes}
    (hquit : endOfTransmission ∉ bytes) :
    quiet.readFrom c line screen (bytes.map .byte) =
      ⟨.ok ((given line.buffer bytes).head?.getD .quit), screen,
        (behindLine bytes).map .byte⟩ := by
  induction bytes generalizing line with
  | nil =>
    rw [List.map_nil, readFrom, atEnd, given, behindLine]
    rcases line.buffer with _ | ⟨ch, text⟩
    · rfl
    · rfl
  | cons b bytes ih =>
    have hb : b ≠ endOfTransmission := (List.ne_of_not_mem_cons hquit).symm
    have hbytes : endOfTransmission ∉ bytes := List.not_mem_of_not_mem_cons hquit
    rw [List.map_cons, readFrom, given, behindLine]
    cases hend : endsLine (.byte b) with
    | true =>
      rw [quiet_press_end hp hend]
      rfl
    | false =>
      obtain ⟨next, hpress, hp', hbuffer⟩ :=
        @quiet_press c _ screen hp b (Bool.or_eq_false_iff.mpr ⟨hend, by simpa using hb⟩)
      rw [hpress]
      dsimp only
      rw [ih hp' hbytes, hbuffer]
      rfl

/-- Reads lines one after the other, each with what the editor knows by then. -/
def readLines (e : Editor) : List Context → Screen → List Key → List ReadResult
  | [], _, _ => []
  | c :: contexts, screen, keys =>
    let result := e.readLine c screen keys
    result :: e.readLines contexts result.screen result.rest

/-- A quiet editor gives out the lines among some bytes one after the other, and then that there are
no more. -/
theorem quiet_readLines (contexts : List Context) (screen : Screen) {bytes : Bytes}
    (hquit : endOfTransmission ∉ bytes) :
    quiet.readLines contexts screen (bytes.map .byte) =
      contexts.mapIdx fun i _ => ⟨.ok ((given [] bytes)[i]?.getD .quit), screen,
        (behindLine^[i + 1] bytes).map .byte⟩ := by
  induction contexts generalizing bytes with
  | nil => rfl
  | cons c contexts ih =>
    have hbehind : endOfTransmission ∉ behindLine bytes :=
      fun hmem => hquit ((behindLine_suffix bytes).subset hmem)
    have hread : quiet.readLine c screen (bytes.map .byte) =
        ⟨.ok ((given [] bytes).head?.getD .quit), screen, (behindLine bytes).map .byte⟩ :=
      @quiet_readFrom c (.fresh c.history) screen rfl bytes hquit
    rw [readLines, hread, List.mapIdx_cons, ih hbehind, ← tail_given [] bytes,
      List.head?_eq_getElem?]
    simp only [List.getElem?_tail, Function.iterate_succ_apply]
    rfl

/-- Noisy input is read line by line. Successive reads of a quiet editor give out the lines of an
input in order, whatever noise is among them, and then that there are no more. Each takes the bytes
up to the end of its line, and none shows anything. -/
theorem quiet_reads_lines (input : Input) {bytes : Bytes} (hnoisy : Noisy input.bytes bytes)
    (contexts : List Context) (screen : Screen) :
    bytes.filter stops = input.lines.map EndedLine.ending ∧
      quiet.readLines contexts screen (bytes.map .byte) =
        contexts.mapIdx fun i _ => ⟨.ok (input.outcomes[i]?.getD .quit), screen,
          (behindLine^[i + 1] bytes).map .byte⟩ := by
  have hstops : bytes.filter stops = input.lines.map EndedLine.ending :=
    hnoisy.filter_stops.trans input.filter_stops
  refine ⟨hstops, ?_⟩
  have hquit : endOfTransmission ∉ bytes := by
    intro hmem
    have hending : endOfTransmission ∈ input.lines.map EndedLine.ending :=
      hstops ▸ List.mem_filter.mpr ⟨hmem, rfl⟩
    obtain ⟨line, -, hline⟩ := List.mem_map.mp hending
    have hends := line.ends
    rw [hline] at hends
    exact absurd hends (by decide)
  rw [quiet_readLines contexts screen hquit, hnoisy.given_eq, input.given_bytes]

/-- An escape at the start, a tab that is erased in front of a character that is erased, and half a
character at the end: the lines are those without all this. -/
theorem quiet_reads_noisy_lines :
    let input : Input :=
      ⟨[⟨"ls\t", lineFeed, by simp [IsTyped], .inl rfl⟩, ⟨"", carriageReturn, by simp, .inr rfl⟩],
        "x", by simp [IsTyped]⟩
    let bytes : Bytes :=
      [0x1b, 0x6c, 0x73, 0x09, 0x0a, 0x71, 0x09, 0x08, 0x7f, 0x0d, 0x78, 0xc3]
    Noisy input.bytes bytes ∧
      (quiet.readLines (List.replicate 5 ⟨[], fun _ => .none⟩) ⟨[], []⟩ (bytes.map .byte)).map
          (fun result => (result.outcome, result.rest.length)) =
        [(.ok (.line "ls\t"), 7), (.ok .empty, 2), (.ok (.line "x"), 0), (.ok .quit, 0),
          (.ok .quit, 0)] := by
  intro input bytes
  have hplain : input.bytes = [0x6c, 0x73, 0x09, 0x0a, 0x0d, 0x78] := by decide +kernel
  have hnoisy : Noisy input.bytes bytes := by
    have hescape : IsNoise 0x1b := by decide
    have hhalf : IsNoise 0xc3 := by decide
    have hcharacter : IsTyping 0x71 := by decide
    have htab : IsTyping 0x09 := by decide
    rw [hplain]
    have hfirst := Noisy.plain.ignored [] [0x6c, 0x73, 0x09, 0x0a, 0x0d, 0x78] hescape
    have hsecond := hfirst.erased [0x1b, 0x6c, 0x73, 0x09, 0x0a] [0x0d, 0x78] hcharacter (.inr rfl)
    have hthird := hsecond.erased [0x1b, 0x6c, 0x73, 0x09, 0x0a, 0x71] [0x7f, 0x0d, 0x78] htab
      (.inl rfl)
    exact hthird.ignored [0x1b, 0x6c, 0x73, 0x09, 0x0a, 0x71, 0x09, 0x08, 0x7f, 0x0d, 0x78] []
      hhalf
  refine ⟨hnoisy, ?_⟩
  rw [(quiet_reads_lines input hnoisy _ _).2]
  decide +kernel

end CommandShell.Editor
