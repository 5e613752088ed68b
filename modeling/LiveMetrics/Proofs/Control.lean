import LiveMetrics.Control
import LiveMetrics.Proofs.Json.Strings

/-!
# Control frames on the wire

Every control frame is read back from what is written of it (`ControlFrame.decode_encode`), and no
raw control character is written (`ControlFrame.printable_text`). Of the frames that a client
writes, `Frame.control?` picks those that are control frames, and `ControlFrame.replay` follows what
a server makes of them: the topics that it serves, in the order in which it was asked for them. A
topic that is asked for twice, or given up without having been asked for, is a fault.
-/

set_option autoImplicit false

namespace LiveMetrics

open Json (Token Scans stringText escaped unescape_escaped)

theorem fromUTF8_toUTF8 (s : String) : String.fromUTF8? s.toUTF8 = some s := by
  unfold String.fromUTF8?
  exact dif_pos s.isValidUTF8

/-- The bytes of a text are the UTF-8 of its characters. -/
theorem toUTF8_eq_utf8Encode (s : String) : s.toUTF8 = s.toList.utf8Encode := by
  rw [String.toUTF8_eq_toByteArray, String.utf8Encode_toList]

namespace ControlFrame

variable (c : ControlFrame)

/-! ## Reading what was written -/

def text : List Char :=
  '\x7b' :: (stringText "type" ++ (':' :: (stringText c.kind.tag ++ (',' ::
    (stringText "topic" ++ (':' :: (stringText c.topic.name ++ ['\x7d'])))))))

def tokens : List Token :=
  [.openBrace, .string (escaped "type"), .colon, .string (escaped c.kind.tag), .comma,
    .string (escaped "topic"), .colon, .string (escaped c.topic.name), .closeBrace]

theorem encode_eq : c.encode = .text (String.ofList c.text).toUTF8 := by
  have ht : (Json.Value.object
      [("type", .string c.kind.tag), ("topic", .string c.topic.name)]).chars = c.text := by
    simp [Json.Value.chars, Json.membersText, text]
  unfold encode Frame.ofText Json.Value.render
  rw [ht]

theorem scans_text : Scans c.text c.tokens := by
  have h : Scans ['\x7d'] [.closeBrace] := Scans.nil.mark rfl rfl
  have h := (h.string c.topic.name).mark (c := ':') rfl rfl
  have h := (h.string "topic").mark (c := ',') rfl rfl
  have h := (h.string c.kind.tag).mark (c := ':') rfl rfl
  exact (h.string "type").mark (c := '\x7b') rfl rfl

theorem ofTag_tag (kind : ControlKind) : ControlKind.ofTag? kind.tag = some kind := by
  cases kind <;> rfl

/-- **A control frame is read back as it was written.** -/
theorem decode_encode : ∃ payload, c.encode = .text payload ∧ decode payload = .ok c := by
  refine ⟨_, c.encode_eq, ?_⟩
  have tree : Json.Tree.parse? c.text = some (.object
      [(escaped "type", .string (escaped c.kind.tag)),
        (escaped "topic", .string (escaped c.topic.name))]) := by
    unfold Json.Tree.parse?
    rw [c.scans_text.scan]
    rfl
  have value : Json.Value.parse? (String.ofList c.text) =
      some (.object [("type", .string c.kind.tag), ("topic", .string c.topic.name)]) := by
    unfold Json.Value.parse?
    rw [String.toList_ofList, tree]
    simp [Json.Tree.value?, Json.memberValues?, unescape_escaped]
  have read : ofValue? (.object [("type", .string c.kind.tag), ("topic", .string c.topic.name)]) =
      some c := by
    simp [ofValue?, sole?, Json.Value.text?, ofTag_tag]
  unfold decode
  rw [fromUTF8_toUTF8, Option.bind_some, value, Option.bind_some, read]

/-! ## No raw control characters -/

/-- No character below U+0020. -/
def Printable (text : List Char) : Prop := ∀ c ∈ text, 0x20 ≤ c.toNat

theorem Printable.append {first rest : List Char} (h : Printable first) (onward : Printable rest) :
    Printable (first ++ rest) := List.forall_mem_append.mpr ⟨h, onward⟩

theorem printable_escaped {c : Char} {word : List Char} (h : Json.Escaped c word) :
    Printable word := by
  cases h with
  | letter value _ =>
    unfold Json.escapeValue? at value
    split at value
    all_goals cases value
    all_goals simp [Printable]
  | number small =>
    have digits : ∀ n < 16, 0x20 ≤ (Json.hexDigit n).toNat := by decide
    have first := digits (c.toNat / 16) (by omega)
    have second := digits (c.toNat % 16) (by omega)
    simp [Printable, first, second]
  | plain _ _ large => simpa [Printable] using large

theorem printable_stringText (s : String) : Printable (stringText s) := by
  have middle : Printable (escaped s) := by
    intro c hc
    obtain ⟨d, -, hc⟩ := List.mem_flatMap.mp hc
    exact printable_escaped (Json.escaped_char d) c hc
  have quote : Printable ['"'] := by simp [Printable]
  exact quote.append (middle.append quote)

theorem printable_text : Printable c.text := by
  have mark : ∀ d ∈ ['\x7b', ':', ',', '\x7d'], Printable [d] := by simp [Printable]
  have colon := mark ':' (by decide)
  have word := printable_stringText
  have topic := (word "topic").append (colon.append
    ((word c.topic.name).append (mark '\x7d' (by decide))))
  have tag := (word "type").append (colon.append
    ((word c.kind.tag).append ((mark ',' (by decide)).append topic)))
  exact (mark '\x7b' (by decide)).append tag

/-- A character from U+0020 on is written in bytes from there on. -/
theorem le_of_mem_utf8EncodeChar {c : Char} (large : 0x20 ≤ c.toNat) :
    ∀ b ∈ String.utf8EncodeChar c, 0x20 ≤ b := by
  have byte : ∀ n, 0x20 ≤ n → n < 256 → 0x20 ≤ UInt8.ofNat n := by
    intro n ge lt
    rw [UInt8.le_iff_toNat_le, UInt8.toNat_ofNat', Nat.mod_eq_of_lt lt]
    exact ge
  have large : 0x20 ≤ c.val.toNat := large
  unfold String.utf8EncodeChar
  generalize c.val.toNat = v at large
  intro b hb
  dsimp only at hb
  -- One case for each number of bytes.
  split at hb
  · rw [List.mem_singleton.mp hb]
    exact byte _ large (by omega)
  split at hb
  · simp only [List.mem_cons, List.not_mem_nil, or_false] at hb
    rcases hb with rfl | rfl <;> exact byte _ (by omega) (by omega)
  split at hb
  · simp only [List.mem_cons, List.not_mem_nil, or_false] at hb
    rcases hb with rfl | rfl | rfl <;> exact byte _ (by omega) (by omega)
  · simp only [List.mem_cons, List.not_mem_nil, or_false] at hb
    rcases hb with rfl | rfl | rfl | rfl <;> exact byte _ (by omega) (by omega)

/-- **What a client writes of its requests is unambiguous.** Every control frame is written as a text
frame that is UTF-8 without raw control characters and is read back as the same request; different
requests are written differently. -/
theorem encode_faithful :
    Function.Injective encode ∧ ∀ c : ControlFrame, ∃ payload, c.encode = .text payload ∧
      payload.IsValidUTF8 ∧ (∀ b ∈ payload.data, 0x20 ≤ b) ∧ decode payload = .ok c := by
  constructor
  · intro c c' same
    obtain ⟨payload, written, read⟩ := c.decode_encode
    obtain ⟨payload', written', read'⟩ := c'.decode_encode
    rw [written, written'] at same
    cases same
    rw [read] at read'
    exact Except.ok.inj read'
  · intro c
    obtain ⟨payload, written, read⟩ := c.decode_encode
    have bytes : payload = c.text.utf8Encode := by
      rw [c.encode_eq] at written
      cases written
      rw [toUTF8_eq_utf8Encode, String.toList_ofList]
    refine ⟨payload, written, ⟨_, bytes⟩, ?_, read⟩
    intro b hb
    rw [bytes, List.utf8Encode, List.data_toByteArray, List.mem_toArray] at hb
    obtain ⟨d, hd, hb⟩ := List.mem_flatMap.mp hb
    exact le_of_mem_utf8EncodeChar (c.printable_text d hd) b hb

end ControlFrame

/-! ## What a server makes of it -/

/-- The control frame that a frame carries. -/
def Frame.control? (frame : Frame) : Option ControlFrame :=
  frame.payload?.bind fun payload => (ControlFrame.decode payload).toOption

@[simp] theorem Frame.control?_encode (c : ControlFrame) : c.encode.control? = some c := by
  obtain ⟨payload, he, hd⟩ := c.decode_encode
  rw [he]
  show (ControlFrame.decode payload).toOption = some c
  rw [hd]
  rfl

/-- The control frames among frames. -/
def controls (frames : List Frame) : List ControlFrame := frames.filterMap Frame.control?

@[simp] theorem controls_nil : controls [] = [] := rfl

theorem controls_append (first rest : List Frame) :
    controls (first ++ rest) = controls first ++ controls rest := List.filterMap_append

theorem controls_mono {first frames : List Frame} (h : first <+: frames) :
    controls first <+: controls frames := h.filterMap _

theorem controls_encode (cs : List ControlFrame) : controls (cs.map ControlFrame.encode) = cs := by
  have hc : Frame.control? ∘ ControlFrame.encode = some := by
    funext c
    rw [Function.comp_apply, Frame.control?_encode]
  unfold controls
  rw [List.filterMap_map, hc, List.filterMap_some]

namespace ControlFrame

/-- What a server that serves these topics serves after a control frame; none if the frame asks for
what is served already, or gives up what is not. -/
def follow? (topics : List Topic) : ControlFrame → Option (List Topic)
  | ⟨.subscribe, topic⟩ => if topic ∈ topics then none else some (topics ++ [topic])
  | ⟨.unsubscribe, topic⟩ => if topic ∈ topics then some (topics.filter (· ≠ topic)) else none

/-- What a server serves after control frames. -/
def replay (topics : List Topic) (frames : List ControlFrame) : Option (List Topic) :=
  frames.foldlM follow? topics

@[simp] theorem replay_nil (topics : List Topic) : replay topics [] = some topics := rfl

theorem replay_cons (topics : List Topic) (c : ControlFrame) (rest : List ControlFrame) :
    replay topics (c :: rest) = (follow? topics c).bind fun topics => replay topics rest := rfl

theorem replay_singleton (topics : List Topic) (c : ControlFrame) :
    replay topics [c] = follow? topics c := by
  rw [replay_cons]
  cases follow? topics c <;> rfl

theorem replay_append (topics : List Topic) (first rest : List ControlFrame) :
    replay topics (first ++ rest) = (replay topics first).bind fun topics => replay topics rest :=
  List.foldlM_append

/-- What was followed to its end was followed all along. -/
theorem replay_of_prefix {topics : List Topic} {first frames : List ControlFrame}
    (h : first <+: frames) (followed : (replay topics frames).isSome = true) :
    (replay topics first).isSome = true := by
  obtain ⟨rest, rfl⟩ := h
  rw [replay_append] at followed
  cases hf : replay topics first with
  | none => rw [hf] at followed; cases followed
  | some topics' => rfl

/-- Asking for topics one after the other, none of them twice. -/
theorem replay_subscribe (served : List Topic) (topics : List Topic)
    (new : (served ++ topics).Nodup) :
    replay served (topics.map fun topic => ⟨.subscribe, topic⟩) = some (served ++ topics) := by
  induction topics generalizing served with
  | nil => simp
  | cons topic rest ih =>
    have absent : topic ∉ served := by
      intro hm
      exact (List.nodup_append.mp new).2.2 topic hm topic List.mem_cons_self rfl
    rw [List.map_cons, replay_cons]
    have hf : follow? served ⟨.subscribe, topic⟩ = some (served ++ [topic]) := if_neg absent
    have he : served ++ topic :: rest = (served ++ [topic]) ++ rest := by simp
    rw [he] at new ⊢
    rw [hf, Option.bind_some, ih _ new]

end ControlFrame

end LiveMetrics
