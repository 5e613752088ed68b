import LiveMetrics.Proofs.Connection.Pages
import LiveMetrics.Proofs.Connection.Superseded
import LiveMetrics.Proofs.Control
import LiveMetrics.Proofs.Subscription.Registry

/-!
# What the server serves

A server serves the topics that it has been asked for. While a connection is open these are the
topics of the registry, whatever has been subscribed to or given up before and since
(`serves_of_run`):

1. the script of a message takes a server that serves the topics before it to those after it, and
   the script of a connection that is taken into use takes it there from nothing (`replay_script`);
2. a turn that leaves the connection up has written its whole script (`Turn.handle_follows`);
3. a connection that has not been taken into use has not been written to (`Serves.fresh`), so there
   the server begins with nothing.
-/

set_option autoImplicit false

namespace LiveMetrics

/-! ## Scripts and topics -/

namespace Turn

variable {κ σ : Type} {t : Turn κ σ}

theorem controls_asks (topics : List Topic) :
    controls (topics.map asks) = topics.map fun topic => ⟨.subscribe, topic⟩ := by
  have he : topics.map asks =
      (topics.map fun topic => (⟨.subscribe, topic⟩ : ControlFrame)).map ControlFrame.encode := by
    rw [List.map_map]
    rfl
  rw [he, controls_encode]

theorem controls_asked (topic : Topic) : controls [asks topic] = [⟨.subscribe, topic⟩] :=
  controls_asks [topic]

theorem controls_waived (topic : Topic) : controls [waives topic] = [⟨.unsubscribe, topic⟩] :=
  controls_encode [⟨.unsubscribe, topic⟩]

theorem controls_pong {h : Heartbeat} {now : Nat} {frame pong : Frame}
    (hp : (h.inbound now frame).2 = .reply pong) : controls [pong] = [] := by
  cases frame with
  | ping payload =>
    unfold Heartbeat.inbound at hp
    dsimp only at hp
    split at hp
    · cases hp
    · cases hp
      rfl
  | _ => cases hp

variable [Callback κ σ]

theorem coherent_script (h : t.manager.registry.Coherent) (message : Message κ) :
    (t.script message).registry.Coherent := by
  cases t.script_revises message with
  | edits registry =>
    rw [registry]
    cases message with
    | subscribe handle topic callback => exact h.insert handle topic callback
    | unsubscribe handle => exact h.remove handle
    | _ => exact h
  | dispatches asked current brings registry =>
    rw [registry]
    exact (Registry.same_dispatch _ _ _ _).coherent h

theorem replay_subscribe_script (h : t.manager.registry.Coherent)
    (open_ : t.manager.state = .connected) (handle : Handle) (topic : Topic) (callback : κ) :
    (t.script (.subscribe handle topic callback)).link = t.manager.writer ∧
      ControlFrame.replay t.manager.registry.topics
          (controls (t.script (.subscribe handle topic callback)).frames) =
        some (t.script (.subscribe handle topic callback)).registry.topics := by
  obtain ⟨hf, hl⟩ := h.topics_insert handle topic callback
  unfold script
  dsimp only
  generalize t.manager.registry.insert handle topic callback = inserted at hf hl
  obtain ⟨registry, first⟩ := inserted
  refine ⟨rfl, ?_⟩
  rw [open_]
  cases first with
  | true =>
    obtain ⟨absent, ht⟩ := hf rfl
    show ControlFrame.replay _ (controls [asks topic]) = some registry.topics
    rw [ht, controls_asked, ControlFrame.replay_singleton]
    exact if_neg absent
  | false =>
    rw [show registry.topics = _ from hl rfl]
    rfl

theorem replay_unsubscribe_script (h : t.manager.registry.Coherent)
    (open_ : t.manager.state = .connected) (handle : Handle) :
    (t.script (.unsubscribe handle)).link = t.manager.writer ∧
      ControlFrame.replay t.manager.registry.topics
          (controls (t.script (.unsubscribe handle)).frames) =
        some (t.script (.unsubscribe handle)).registry.topics := by
  unfold script
  dsimp only
  split <;> rename_i he
  · exact ⟨rfl, rfl⟩
  · rename_i registry removed
    obtain ⟨hl, hm⟩ := h.topics_remove he
    refine ⟨rfl, ?_⟩
    rw [open_]
    cases last : removed.nowEmpty with
    | true =>
      obtain ⟨present, ht⟩ := hl last
      show ControlFrame.replay _ (controls [waives removed.topic]) = some registry.topics
      rw [ht, controls_waived, ControlFrame.replay_singleton]
      exact if_pos present
    | false =>
      rw [show registry.topics = _ from hm last]
      rfl

/-- **A script leads on from the topics before it to those after it**, while a connection is open. -/
theorem replay_script (h : t.manager.registry.Coherent) (open_ : t.manager.state = .connected)
    (message : Message κ) : (t.script message).link = t.manager.writer ∧
      ControlFrame.replay t.manager.registry.topics (controls (t.script message).frames) =
        some (t.script message).registry.topics := by
  cases message with
  | subscribe handle topic callback => exact replay_subscribe_script h open_ handle topic callback
  | unsubscribe handle => exact replay_unsubscribe_script h open_ handle
  | opened generation link =>
    have hc : ¬ t.current generation .connecting = true := by
      rw [current_iff, open_]
      nofun
    unfold script
    dsimp only
    rw [if_neg hc]
    exact ⟨rfl, rfl⟩
  | inbound generation frame =>
    unfold script
    dsimp only
    split
    · split
      · exact ⟨rfl, congrArg some (Registry.same_dispatch _ _ _ _).topics.symm⟩
      · rename_i pong _ hp
        rw [show (t.writing [pong]).frames = [pong] from rfl, controls_pong hp]
        exact ⟨rfl, rfl⟩
      · exact ⟨rfl, rfl⟩
    · exact ⟨rfl, rfl⟩
  | tick generation =>
    unfold script
    dsimp only
    split <;> exact ⟨rfl, rfl⟩
  | _ => exact ⟨rfl, rfl⟩

theorem script_install {generation : UInt64} {link : Nat}
    (current : t.current generation .connecting = true) : t.script (.opened generation link) =
      { t.writing (t.manager.registry.topics.map asks) with link := some link } := by
  unfold script
  dsimp only
  rw [if_pos current]

/-- While no connection is open nothing is written, unless one is taken into use. -/
theorem script_of_closed (closed : t.manager.state ≠ .connected) (message : Message κ) :
    (t.script message).frames = [] ∨ ∃ link, message = .opened t.manager.generation link ∧
      t.manager.state = .connecting := by
  have hb : (t.manager.state == .connected) = false := beq_false_of_ne closed
  have hc : ∀ g, ¬ t.current g .connected = true :=
    fun g h => closed ((current_iff g .connected).mp h).2
  cases message with
  | subscribe handle topic callback =>
    left
    unfold script
    dsimp only
    rw [hb, Bool.and_false]
    rfl
  | unsubscribe handle =>
    left
    unfold script
    dsimp only
    split
    · rfl
    · rw [hb, Bool.and_false]
      rfl
  | opened generation link =>
    by_cases h : t.current generation .connecting = true
    · obtain ⟨rfl, hs⟩ := (current_iff _ _).mp h
      exact .inr ⟨link, rfl, hs⟩
    · left
      unfold script
      dsimp only
      rw [if_neg h]
      rfl
  | inbound generation frame =>
    left
    unfold script
    dsimp only
    rw [if_neg (hc generation)]
    rfl
  | tick generation =>
    left
    unfold script
    dsimp only
    rw [Bool.eq_false_iff.mpr (hc generation)]
    rfl
  | _ => exact .inl rfl

end Turn

/-! ## What the servers have heard -/

/-- The connection that an attempt offers. -/
def Message.offer? {κ : Type} : Message κ → Option Nat
  | .opened _ link => some link
  | _ => none

namespace World

variable {κ σ : Type}

/-- The control frames that the server at the end of a connection has received. -/
def heard (w : World κ σ) (link : Nat) : Option (List ControlFrame) :=
  (w.links[link]?).map fun l => controls l.written

/-- The connection that a letter offers. -/
def Letter.offer? (letter : Letter κ) : Option Nat := letter.message.offer?

/-- The connections that wait in the mailbox to be taken into use. -/
def offers (w : World κ σ) : List Nat := w.mailbox.filterMap Letter.offer?

section Projections

variable (w : World κ σ)

/-- What a server has heard are the control frames among all that has been written to it. -/
theorem heard_eq (n : Nat) : w.heard n = (w.page n).map controls := by
  unfold heard page
  rw [Option.map_map]
  rfl

theorem heard_onLink_of_same {f : Link → Link}
    (same : ∀ l, controls (f l).written = controls l.written) (link n : Nat) :
    (w.onLink link f).heard n = w.heard n := by
  rw [heard_eq, page_onLink, Option.map_map]
  unfold heard
  congr 1
  funext l
  show controls (if link = n then f l else l).written = _
  split
  · exact same l
  · rfl

@[simp] theorem heard_post (sender : Option Nat) (message : Message κ) :
    (w.post sender message).heard = w.heard := by
  unfold heard
  rw [links_post]

theorem heard_joined (n : Nat) :
    w.joined.heard n = if n = w.links.length then some [] else w.heard n := by
  rw [heard_eq, page_joined, heard_eq]
  split <;> rfl

theorem heard_length : w.heard w.links.length = none := by
  unfold heard
  rw [List.getElem?_eq_none (Nat.le_refl _)]
  rfl

theorem heard_joined_of_some {n : Nat} {x : List ControlFrame} (h : w.heard n = some x) :
    w.joined.heard n = some x := by
  rw [heard_joined, if_neg ?_]
  · exact h
  · rintro rfl
    exact nomatch w.heard_length.symm.trans h

variable [Callback κ σ] (letter : Letter κ) (rest : List (Letter κ))
  (outcomes : Nat → Nat → WriteOutcome)

def script (w : World κ σ) : Turn.Script κ σ :=
  (Turn.mk w.manager w.shared w.now outcomes 0 []).script letter.message

theorem heard_turn (n : Nat) : (w.turn letter rest outcomes).heard n = (w.heard n).map fun h =>
    h ++ controls (addressed n ((w.handling letter outcomes).effects.filterMap Effect.wrote?)) := by
  rw [heard_eq, page_turn, heard_eq, Option.map_map, Option.map_map]
  congr 1
  funext page
  exact controls_append ..

/-- What a turn has written: the first frames of its script, all if the connection is still up. -/
structure Wrote (said : List (Nat × Frame)) : Prop where
  effects : (w.handling letter outcomes).effects.filterMap Effect.wrote? = said
  link : ∀ p ∈ said, (w.script letter outcomes).link = some p.1
  first : said.map Prod.snd <+: (w.script letter outcomes).frames
  all : (w.handling letter outcomes).manager.Up →
    said.map Prod.snd = (w.script letter outcomes).frames
  registry : (w.handling letter outcomes).manager.registry = (w.script letter outcomes).registry
  shared : (w.handling letter outcomes).shared = (w.script letter outcomes).shared

/-- **A turn follows the script of its letter.** -/
theorem turn_wrote : ∃ said, w.Wrote letter outcomes said := by
  obtain ⟨said, ⟨hp, hl⟩, hr, hu⟩ : (Turn.mk w.manager w.shared w.now outcomes 0 []).Follows
    (w.script letter outcomes) (w.handling letter outcomes) := Turn.handle_follows letter.message
  exact ⟨said, congrArg Turn.Rest.written hr, hl, hp, hu, congrArg Turn.Rest.registry hr,
    congrArg Turn.Rest.shared hr⟩

variable {w letter rest outcomes}

theorem Wrote.heard {said : List (Nat × Frame)} (h : w.Wrote letter outcomes said) {n : Nat}
    {x : List ControlFrame} (hx : w.heard n = some x) : (w.turn letter rest outcomes).heard n =
      some (x ++ controls
        (if (w.script letter outcomes).link = some n then said.map Prod.snd else [])) := by
  rw [heard_turn, hx, h.effects, addressed_of_link h.link]
  rfl

end Projections

/-! ## The invariant -/

/-- What holds of the servers between any two steps of a run: none has been asked for a topic twice
or to give up what it does not serve, a connection that is offered has not been written to, and the
server of the open connection serves the topics of the registry. -/
structure Serves (w : World κ σ) : Prop where
  coherent : w.manager.registry.Coherent
  valid : ∀ n h, w.heard n = some h → (ControlFrame.replay [] h).isSome = true
  fresh : ∀ link ∈ w.offers, w.heard link = some [] ∧ w.manager.writer ≠ some link
  apart : w.offers.Nodup
  known : ∀ link, w.manager.writer = some link → w.heard link ≠ none
  present : w.manager.Up → ∃ link h, w.manager.writer = some link ∧ w.heard link = some h ∧
    ControlFrame.replay [] h = some w.manager.registry.topics

namespace Serves

variable {w w' : World κ σ}

/-- A step in which the manager takes no part and nothing is written or offered. -/
theorem calm (h : Serves w) (manager : w'.manager = w.manager) (heard : w'.heard = w.heard)
    (offers : w'.offers = w.offers) : Serves w' := by
  refine ⟨?_, ?_, ?_, ?_, ?_, ?_⟩
  · rw [manager]; exact h.coherent
  · rw [heard]; exact h.valid
  · rw [manager, heard, offers]; exact h.fresh
  · rw [offers]; exact h.apart
  · rw [manager, heard]; exact h.known
  · rw [manager, heard]; exact h.present

theorem rewire (h : Serves w) {f : Link → Link}
    (same : ∀ l, controls (f l).written = controls l.written) (link : Nat) :
    Serves (w.onLink link f) :=
  h.calm rfl (funext fun n => w.heard_onLink_of_same same link n) rfl

theorem offers_post {sender : Option Nat} {message : Message κ} (none_ : message.offer? = none) :
    (w.post sender message).offers = w.offers := by
  unfold offers post
  split
  · rfl
  · have hl : [(⟨sender, message⟩ : Letter κ)].filterMap Letter.offer? = [] :=
      List.filterMap_cons_none none_
    rw [List.filterMap_append, hl, List.append_nil]

theorem post (h : Serves w) {sender : Option Nat} {message : Message κ}
    (none_ : message.offer? = none) : Serves (w.post sender message) :=
  h.calm (manager_post ..) (heard_post ..) (offers_post none_)

theorem deliver (h : Serves w) {task : Nat} {message : Message κ}
    (none_ : message.offer? = none) : Serves (w.deliver task message) :=
  (h.post none_).calm rfl rfl rfl

theorem joined (h : Serves w) : Serves w.joined := by
  refine ⟨h.coherent, fun n x hn => ?_, fun link hl => ?_, h.apart, fun link hl => ?_, fun up => ?_⟩
  · rw [heard_joined] at hn
    split at hn
    · cases hn
      rfl
    · exact h.valid n x hn
  · obtain ⟨hf, hw⟩ := h.fresh link hl
    exact ⟨w.heard_joined_of_some hf, hw⟩
  · obtain ⟨x, hx⟩ := Option.ne_none_iff_exists'.mp (h.known link hl)
    rw [w.heard_joined_of_some hx]
    nofun
  · obtain ⟨link, x, hl, hx, hr⟩ := h.present up
    exact ⟨link, x, hl, w.heard_joined_of_some hx, hr⟩

/-- A connection that has not been written to is offered. -/
theorem deliver_opened (h : Serves w) {link : Nat} (silent : w.heard link = some [])
    (unused : w.manager.writer ≠ some link) (new : link ∉ w.offers) (task : Nat) (g : UInt64) :
    Serves (w.deliver task (.opened g link)) := by
  let w' := w.deliver task (.opened g link)
  have manager : w'.manager = w.manager := manager_post ..
  have heard : w'.heard = w.heard := heard_post ..
  have offers : w'.offers = w.offers ∨ w'.offers = w.offers ++ [link] := by
    show (World.post w _ _).offers = _ ∨ (World.post w _ _).offers = _
    unfold World.post
    split
    · exact .inl rfl
    · right
      unfold World.offers
      rw [List.filterMap_append]
      rfl
  refine ⟨?_, ?_, fun l hl => ?_, ?_, ?_, ?_⟩
  · rw [manager]; exact h.coherent
  · rw [heard]; exact h.valid
  · rw [manager, heard]
    rcases offers with ho | ho <;> rw [ho] at hl
    · exact h.fresh l hl
    · rcases List.mem_append.mp hl with hl | hl
      · exact h.fresh l hl
      · rw [List.mem_singleton.mp hl]
        exact ⟨silent, unused⟩
  · rcases offers with ho | ho <;> rw [ho]
    · exact h.apart
    · rw [← List.concat_eq_append]
      exact .concat new h.apart
  · rw [manager, heard]; exact h.known
  · rw [manager, heard]; exact h.present

/-- A connection that an attempt has led to. -/
theorem offer (h : Serves w) (task : Nat) (g : UInt64) :
    Serves (w.joined.deliver task (.opened g w.links.length)) := by
  have unknown := w.heard_length
  refine h.joined.deliver_opened ?_ (fun hw => h.known _ hw unknown) (fun hl => ?_) task g
  · rw [heard_joined, if_pos rfl]
  · have hf := (h.fresh _ hl).1
    rw [unknown] at hf
    cases hf

/-! ### Turns -/

section Turns

variable {letter : Letter κ} {rest : List (Letter κ)}

theorem offers_next (next : w.mailbox = letter :: rest) :
    w.offers = letter.offer?.toList ++ rest.filterMap Letter.offer? := by
  unfold offers
  rw [next, filterMap_cons_toList]

variable [Callback κ σ]

/-- A script is for a connection, and leads its server to the topics of the registry. -/
structure Leads (w : World κ σ) (s : Turn.Script κ σ) (link : Nat) : Prop where
  link_eq : s.link = some link
  leads : ∃ x, w.heard link = some x ∧
    ControlFrame.replay [] (x ++ controls s.frames) = some s.registry.topics

theorem leads_open (h : Serves w) (up : w.manager.Up) (letter : Letter κ)
    (outcomes : Nat → Nat → WriteOutcome) :
    ∃ link, w.manager.writer = some link ∧ Leads w (w.script letter outcomes) link := by
  obtain ⟨link, x, hl, hx, hr⟩ := h.present up
  obtain ⟨hs, he⟩ := Turn.replay_script (t := ⟨w.manager, w.shared, w.now, outcomes, 0, []⟩)
    h.coherent up.2 letter.message
  refine ⟨link, hl, hs.trans hl, x, hx, ?_⟩
  rw [ControlFrame.replay_append, hr]
  exact he

theorem script_opened {link : Nat} (asked : letter.message = .opened w.manager.generation link)
    (state : w.manager.state = .connecting) (outcomes : Nat → Nat → WriteOutcome) :
    w.script letter outcomes =
      ⟨some link, w.manager.registry.topics.map Turn.asks, w.manager.registry, w.shared⟩ := by
  unfold World.script
  rw [asked]
  exact Turn.script_install ((Turn.current_iff _ _).mpr ⟨rfl, state⟩)

theorem leads_install (h : Serves w) {link : Nat} (offered : link ∈ w.offers)
    (asked : letter.message = .opened w.manager.generation link)
    (state : w.manager.state = .connecting) (outcomes : Nat → Nat → WriteOutcome) :
    Leads w (w.script letter outcomes) link := by
  rw [script_opened asked state]
  refine ⟨rfl, [], (h.fresh link offered).1, ?_⟩
  show ControlFrame.replay [] (controls (w.manager.registry.topics.map Turn.asks)) =
    some w.manager.registry.topics
  rw [Turn.controls_asks, ControlFrame.replay_subscribe [] _ h.coherent.distinct]
  rfl

theorem silent_or_leads (h : Serves w) (runs : w.manager.phase = .running)
    (next : w.mailbox = letter :: rest) (outcomes : Nat → Nat → WriteOutcome) :
    (w.script letter outcomes).frames = [] ∨ ∃ link, Leads w (w.script letter outcomes) link ∧
      link ∉ rest.filterMap Letter.offer? := by
  have ho := offers_next next
  by_cases open_ : w.manager.state = .connected
  · obtain ⟨link, hl, leads⟩ := h.leads_open ⟨runs, open_⟩ letter outcomes
    refine .inr ⟨link, leads, fun hm => ?_⟩
    exact (h.fresh link (ho ▸ List.mem_append_right _ hm)).2 hl
  · rcases Turn.script_of_closed (t := ⟨w.manager, w.shared, w.now, outcomes, 0, []⟩) open_
      letter.message with silent | ⟨link, asked, state⟩
    · exact .inl silent
    · rw [show letter.offer? = some link from congrArg Message.offer? asked] at ho
      have offered : link ∈ w.offers := ho ▸ List.mem_cons_self
      refine .inr ⟨link, h.leads_install offered asked state outcomes, ?_⟩
      have hn := h.apart
      rw [ho] at hn
      exact (List.nodup_cons.mp hn).1

/-- The writing side is as before, or that of the connection that was offered. -/
theorem writer_before (steady : Steady w) (hp : w.manager.phase ≠ .stopped)
    {outcomes : Nat → Nat → WriteOutcome} {link : Nat}
    (hl : (w.turn letter rest outcomes).manager.writer = some link) :
    w.manager.writer = some link ∨ letter.offer? = some link := by
  rw [manager_turn] at hl
  rcases (steady.course hp letter outcomes).writer with he | he | ⟨link', asked, he⟩
  · exact .inl (he.symm.trans hl)
  · exact nomatch he.symm.trans hl
  · right
    rw [show letter.offer? = some link' from congrArg Message.offer? asked]
    exact he.symm.trans hl

/-- What remains in the mailbox was offered before, and not by the letter. -/
theorem offered_before (h : Serves w) (next : w.mailbox = letter :: rest)
    {outcomes : Nat → Nat → WriteOutcome} {link : Nat}
    (hl : link ∈ (w.turn letter rest outcomes).offers) :
    link ∈ w.offers ∧ link ∈ rest.filterMap Letter.offer? ∧ letter.offer? ≠ some link := by
  have ho := offers_next next
  have hn := h.apart
  have hm : link ∈ rest.filterMap Letter.offer? := by
    unfold World.offers at hl
    rw [mailbox_turn] at hl
    split at hl
    · cases hl
    · exact hl
  refine ⟨ho ▸ List.mem_append_right _ hm, hm, fun he => ?_⟩
  rw [ho, he] at hn
  exact (List.nodup_cons.mp hn).1 hm

section Step

variable (h : Serves w) (runs : w.manager.phase = .running) (next : w.mailbox = letter :: rest)
  {outcomes : Nat → Nat → WriteOutcome}

include h runs next

theorem valid_turn {n : Nat} {y : List ControlFrame}
    (hy : (w.turn letter rest outcomes).heard n = some y) :
    (ControlFrame.replay [] y).isSome = true := by
  obtain ⟨said, wrote⟩ := w.turn_wrote letter outcomes
  rw [heard_turn] at hy
  obtain ⟨x, hx, rfl⟩ := Option.map_eq_some_iff.mp hy
  have first := wrote.first
  rw [wrote.effects, addressed_of_link wrote.link]
  by_cases hl : (w.script letter outcomes).link = some n
  · rw [if_pos hl]
    rcases h.silent_or_leads runs next outcomes with silent | ⟨link, ⟨hs, x', hx', hr⟩, -⟩
    · rw [silent] at first
      rw [List.prefix_nil.mp first, controls_nil, List.append_nil]
      exact h.valid n x hx
    · obtain rfl : link = n := Option.some.inj (hs.symm.trans hl)
      obtain rfl : x' = x := Option.some.inj (hx'.symm.trans hx)
      refine ControlFrame.replay_of_prefix ?_ (by rw [hr]; rfl)
      exact (List.prefix_append_right_inj _).mpr (controls_mono first)
  · rw [if_neg hl, controls_nil, List.append_nil]
    exact h.valid n x hx

theorem fresh_turn (steady : Steady w) {link : Nat}
    (hl : link ∈ (w.turn letter rest outcomes).offers) :
    (w.turn letter rest outcomes).heard link = some [] ∧
      (w.turn letter rest outcomes).manager.writer ≠ some link := by
  obtain ⟨said, wrote⟩ := w.turn_wrote letter outcomes
  obtain ⟨hm, hr, hne⟩ := h.offered_before next hl
  obtain ⟨hf, hw⟩ := h.fresh link hm
  have first := wrote.first
  constructor
  · rw [wrote.heard hf]
    rcases h.silent_or_leads runs next outcomes with silent | ⟨link', ⟨hs, -⟩, hn⟩
    · rw [silent] at first
      rw [List.prefix_nil.mp first]
      simp
    · rw [if_neg ?_]
      · rfl
      · intro he
        exact hn (Option.some.inj (hs.symm.trans he) ▸ hr)
  · intro hw'
    rcases writer_before steady (by rw [runs]; nofun) hw' with he | he
    · exact hw he
    · exact hne he

theorem known_turn (steady : Steady w) {link : Nat}
    (hl : (w.turn letter rest outcomes).manager.writer = some link) :
    (w.turn letter rest outcomes).heard link ≠ none := by
  obtain ⟨said, wrote⟩ := w.turn_wrote letter outcomes
  have hk : w.heard link ≠ none := by
    rcases writer_before steady (by rw [runs]; nofun) hl with he | he
    · exact h.known link he
    · rw [(h.fresh link (by rw [offers_next next, he]; exact List.mem_cons_self)).1]
      nofun
  obtain ⟨x, hx⟩ := Option.ne_none_iff_exists'.mp hk
  rw [wrote.heard hx]
  nofun

/-- The server of the open connection has been led to the topics, whichever way the connection has
come to be open. -/
theorem present_turn (steady : Steady w) (up : (w.turn letter rest outcomes).manager.Up) :
    ∃ link x, (w.turn letter rest outcomes).manager.writer = some link ∧
      (w.turn letter rest outcomes).heard link = some x ∧
        ControlFrame.replay [] x = some (w.turn letter rest outcomes).manager.registry.topics := by
  have hp : w.manager.phase ≠ .stopped := by rw [runs]; nofun
  obtain ⟨said, wrote⟩ := w.turn_wrote letter outcomes
  rw [manager_turn] at up ⊢
  have still : (w.handling letter outcomes).holding.stopped = false := by
    show ((w.handling letter outcomes).manager.phase == .stopped) = false
    rw [up.1]
    rfl
  have led : ∀ link, (w.handling letter outcomes).manager.writer = some link →
      Leads w (w.script letter outcomes) link → ∃ link x,
        (w.handling letter outcomes).manager.writer = some link ∧
          (w.turn letter rest outcomes).heard link = some x ∧
            ControlFrame.replay [] x =
              some (w.handling letter outcomes).manager.registry.topics := by
    rintro link hw ⟨hs, x, hx, hr⟩
    refine ⟨link, _, hw, wrote.heard hx, ?_⟩
    rw [if_pos hs, wrote.all up, wrote.registry]
    exact hr
  rcases (steady.course hp letter outcomes).connected still up.2 with
    ⟨same, -⟩ | ⟨link, _, _, state, asked, settles⟩
  · have hs : (w.handling letter outcomes).manager.state = w.manager.state :=
      congrArg Holding.state same
    obtain ⟨link, hw, leads⟩ := h.leads_open ⟨runs, hs ▸ up.2⟩ letter outcomes
    exact led link ((congrArg Holding.writer same).trans hw) leads
  · have offered : link ∈ w.offers := by
      rw [offers_next next, show letter.offer? = some link from congrArg Message.offer? asked]
      exact List.mem_cons_self
    exact led link (congrArg Holding.writer settles) (h.leads_install offered asked state outcomes)

/-- **A turn keeps the servers led.** -/
theorem turn (steady : Steady w) : Serves (w.turn letter rest outcomes) := by
  obtain ⟨said, wrote⟩ := w.turn_wrote letter outcomes
  refine ⟨?_, fun n y hy => h.valid_turn runs next hy, fun link hl => h.fresh_turn runs next steady hl,
    ?_, fun link hl => h.known_turn runs next steady hl, fun up => h.present_turn runs next steady up⟩
  · rw [manager_turn, wrote.registry]
    exact Turn.coherent_script h.coherent letter.message
  · have hn := h.apart
    rw [offers_next next] at hn
    unfold World.offers
    rw [mailbox_turn]
    split
    · exact List.nodup_nil
    · exact (List.nodup_append.mp hn).2.1

end Step

end Turns

end Serves

/-! ## Runs -/

section Runs

theorem offer?_of_request {message : Message κ} (h : message.isRequest = true) :
    message.offer? = none := by
  cases message with
  | opened g link => cases h
  | _ => rfl

variable {config : Config} {policy : Nat → Verdict} {autoPong : Bool} {shared : σ}

theorem serves_start : Serves (start config policy autoPong shared : World κ σ) :=
  ⟨Registry.coherent_empty, nofun, nofun, List.nodup_nil, nofun, fun up => nomatch up.2⟩

variable [Callback κ σ]

theorem serves_of_run {w : World κ σ} (h : Run config policy autoPong shared w) :
    Serves w := by
  induction h with
  | start => exact serves_start
  | step before step ih =>
    rename_i w w'
    have steady := steady_of_run before
    cases step with
    | turns runs next outcomes => exact ih.turn runs next steady
    | asks request => exact ih.post (offer?_of_request request)
    | opens runs => exact ih.offer _ _
    | refuses runs error => exact ih.deliver rfl
    | expires runs due => exact ih.deliver rfl
    | breaks runs there next => exact ih.deliver rfl
    | ends runs there closed last => exact ih.deliver rfl
    | retries runs due => exact ih.deliver rfl
    | waits | stirs | cancels => exact ih.calm rfl rfl rfl
    | sends there open_ item => exact ih.rewire (fun _ => by rfl) _
    | leaves link => exact ih.rewire (fun _ => by rfl) link
    | reads runs there next =>
      rename_i task link g l frame
      have hr : Serves (w.onLink link fun l => { l with read := l.read + 1 }) :=
        ih.rewire (fun _ => by rfl) link
      exact hr.post rfl
    | ticks runs due again =>
      rename_i task g interval instant from_
      have hp : Serves (w.post (some task) (.tick g)) := ih.post rfl
      exact hp.calm rfl rfl rfl
    | parts left frames what =>
      rename_i link
      have same : ∀ l : Link, controls (l.written ++ frames) = controls l.written := by
        intro l
        rcases what with rfl | rfl
        · rw [List.append_nil]
        · rw [controls_append]
          exact List.append_nil _
      exact (ih.rewire same link).calm rfl rfl rfl

/-! ### The turn that has opened the connection -/

/-- The turn has told a connection all topics of the registry, each once, and nothing else. -/
def Handled.TellsAll (r : Handled κ) (link : Nat) : Prop :=
  r.effects.filterMap Effect.wrote? =
    r.after.registry.topics.map (fun topic => (link, ControlFrame.encode ⟨.subscribe, topic⟩)) ∧
  r.after.registry.topics.Nodup

theorem tellsAll_of_opened {w : World κ σ} (h : Serves w) {letter : Letter κ}
    {outcomes : Nat → Nat → WriteOutcome} {link : Nat}
    (asked : letter.message = .opened w.manager.generation link)
    (state : w.manager.state = .connecting) (up : (w.handling letter outcomes).manager.Up) :
    (w.handled letter outcomes).TellsAll link := by
  obtain ⟨said, wrote⟩ := w.turn_wrote letter outcomes
  have hs := Serves.script_opened asked state outcomes
  have registry : (w.handled letter outcomes).after.registry = w.manager.registry := by
    rw [show (w.handled letter outcomes).after.registry = _ from wrote.registry, hs]
  have frames : said.map Prod.snd = w.manager.registry.topics.map Turn.asks := by
    rw [wrote.all up, hs]
  have to_link : ∀ p ∈ said, p.1 = link := by
    intro p hp
    have hl := wrote.link p hp
    rw [hs] at hl
    exact (Option.some.inj hl).symm
  unfold Handled.TellsAll
  rw [registry, show (w.handled letter outcomes).effects.filterMap Effect.wrote? = said from
    wrote.effects]
  refine ⟨?_, h.coherent.distinct⟩
  calc said = said.map fun p => (link, p.2) := by
        refine (List.map_congr_left ?_).trans said.map_id |>.symm
        intro p hp
        rw [← to_link p hp]
        rfl
    _ = (said.map Prod.snd).map fun frame => (link, frame) := by rw [List.map_map]; rfl
    _ = w.manager.registry.topics.map fun topic => (link, Turn.asks topic) := by
        rw [frames, List.map_map]; rfl

theorem tellsAll_of_run {w : World κ σ} (h : Run config policy autoPong shared w)
    (up : w.manager.Up) : ∃ link reader ticker, w.manager.writer = some link ∧
      w.Since fun r => r.Installs link reader ticker ∧ r.TellsAll link := by
  induction h with
  | start => exact nomatch up.2
  | step before step ih =>
    rename_i w w'
    rcases step.turn_or_apart with ⟨letter, rest, outcomes, runs, next, rfl⟩ | ⟨letters, apart⟩
    · have steady := steady_of_run before
      have hp : w.manager.phase ≠ .stopped := by rw [runs]; nofun
      have history := history_turn w letter rest outcomes
      rw [manager_turn] at up ⊢
      have still : (w.handling letter outcomes).holding.stopped = false := by
        show ((w.handling letter outcomes).manager.phase == .stopped) = false
        rw [up.1]
        rfl
      rcases (steady.course hp letter outcomes).connected still up.2 with
        ⟨same, other⟩ | ⟨link, _, _, state, asked, settles⟩
      · have hs : (w.handling letter outcomes).manager.state = w.manager.state :=
          congrArg Holding.state same
        obtain ⟨link, reader, ticker, hw, since⟩ := ih ⟨runs, hs ▸ up.2⟩
        exact ⟨link, reader, ticker, (congrArg Holding.writer same).trans hw,
          since.append history (not_interrupts (congrArg Holding.marks same) other)⟩
      · have hr := congrArg Holding.readerTask settles
        have ht := congrArg Holding.heartbeatTask settles
        exact ⟨link, w.manager.tasks, w.manager.tasks + 1, congrArg Holding.writer settles,
          .now history ⟨installs_of_settle asked settles hr ht,
            tellsAll_of_opened (serves_of_run before) asked state up⟩⟩
    · rw [apart.manager] at up ⊢
      obtain ⟨link, reader, ticker, hw, past, r, after, he, hr⟩ := ih up
      exact ⟨link, reader, ticker, hw, past, r, after, apart.history.trans he, hr⟩

/-- **The server serves the topics of the registry**: at no time has any server been asked for what it
served already or to give up what it did not serve. Between two turns of a manager whose connection
is open, the server of that connection serves the topics that have a callback; and the turn that
took the connection into use asked for the topics of its time, once each and in their order. -/
theorem served_of_run {w : World κ σ} (run : Run config policy autoPong shared w) :
    (∀ l ∈ w.links, ∃ topics, ControlFrame.replay [] (controls l.written) = some topics) ∧
    (w.manager.phase = .running → w.manager.state = .connected → ∃ link l reader ticker,
      w.manager.writer = some link ∧ w.links[link]? = some l ∧
      ControlFrame.replay [] (controls l.written) = some w.manager.registry.topics ∧
      w.Since fun r => r.Installs link reader ticker ∧ r.TellsAll link) ∧
    w.manager.registry.topics.Nodup ∧
    ∀ topic, topic ∈ w.manager.registry.topics ↔ w.manager.registry.callbacks topic ≠ [] := by
  have serves := serves_of_run run
  refine ⟨fun l hl => ?_, fun runs open_ => ?_, serves.coherent.distinct, fun topic => ?_⟩
  · obtain ⟨n, hn⟩ := List.getElem?_of_mem hl
    have hh : w.heard n = some (controls l.written) := by unfold heard; rw [hn]; rfl
    exact Option.isSome_iff_exists.mp (serves.valid n _ hh)
  · obtain ⟨link, x, hw, hx, hr⟩ := serves.present ⟨runs, open_⟩
    obtain ⟨l, hl, rfl⟩ := Option.map_eq_some_iff.mp hx
    obtain ⟨link', reader, ticker, hw', since⟩ := tellsAll_of_run run ⟨runs, open_⟩
    obtain rfl : link = link' := Option.some.inj (hw.symm.trans hw')
    exact ⟨link, l, reader, ticker, hw, hl, hr, since⟩
  · rw [serves.coherent.topics topic, ne_eq, Registry.handlesOn_eq_nil]

/-- A client has asked for a topic while the connection is open. -/
def subscribeRequested : World Listener Notebook :=
  defaultOpen.post none (.subscribe ⟨0⟩ .alerts (.recording "alerts"))

def subscribedOnline : World Listener Notebook :=
  subscribeRequested.turn ⟨none, .subscribe ⟨0⟩ .alerts (.recording "alerts")⟩ [] fun _ _ => .done

theorem run_subscribedOnline :
    Run .default (fun _ => .giveUp) true (.empty 20) subscribedOnline :=
  .step (.step run_defaultOpen (.asks rfl)) (.turns rfl rfl _)

/-- The case of a topic that is subscribed to while the connection is open. -/
theorem served_subscribedOnline :
    (Run .default (fun _ => .giveUp) true (.empty 20) subscribedOnline ∧
      subscribedOnline.manager.phase = .running ∧ subscribedOnline.manager.state = .connected ∧
      subscribedOnline.manager.registry.topics = [.alerts]) ∧
    ∃ link l, subscribedOnline.manager.writer = some link ∧ subscribedOnline.links[link]? = some l ∧
      ControlFrame.replay [] (controls l.written) = some [.alerts] := by
  have topics : subscribedOnline.manager.registry.topics = [.alerts] := rfl
  obtain ⟨link, l, -, -, hw, hl, hr, -⟩ := (served_of_run run_subscribedOnline).2.1 rfl rfl
  exact ⟨⟨run_subscribedOnline, rfl, rfl, topics⟩, link, l, hw, hl, topics ▸ hr⟩

end Runs

end World

end LiveMetrics
