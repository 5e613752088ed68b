import LiveMetrics.Proofs.Json.Amounts
import LiveMetrics.Proofs.Window
import LiveMetrics.Session.Listener

/-!
# Charts

A listener that charts adds to every sample's topic one point for each of its names, if the first
member of that name is a number. Which points a series gets is told without the windows
(`Sample.Measures`, `Plots`).

1. One name of one sample fills one window, and no other (`WindowSet.window?_feedMember`).
2. The names of one sample are pairwise different, so that each fills a window of its own
   (`WindowSet.window?_feedSeries`): here two equal names would add the same point twice.
3. Points that come one sample after the other are points that come at once (`WindowSet.grown_append`),
   so after all samples the window of a series holds the last of its points.

Together: `Listener.charted_of_distinct`.
-/

set_option autoImplicit false

namespace LiveMetrics

open Json (Value)

/-! ## What a series shows -/

/-- A number, and the same as a double: a whole number is taken for the double nearest to it. -/
inductive Json.Value.Amounts : Value → Double → Prop where
  | float (d : Double) : Amounts (.float d) d
  | integer (n : Int) : Amounts (.integer n) (.ofInt n)

/-- The payload is an object, its first member of that name is a number, and this is the number as a
double. -/
inductive Sample.Measures (s : Sample) (name : String) (d : Double) : Prop where
  | mk {front behind : List (String × Value)} {v : Value}
      (members : s.fields = .object (front ++ (name, v) :: behind)) (first : ∀ m ∈ front, m.1 ≠ name)
      (amounts : v.Amounts d) : Measures s name d

/-- The points of a series: one for each sample on the topic that measures it, in their order. -/
inductive Plots (topic : Topic) (name : String) : List Sample → List Point → Prop where
  | nil : Plots topic name [] []
  | point {s : Sample} {d : Double} {rest : List Sample} {points : List Point} (mine : s.topic = topic)
      (measures : s.Measures name d) (onward : Plots topic name rest points) :
      Plots topic name (s :: rest) (⟨s.timestamp, d⟩ :: points)
  | skip {s : Sample} {rest : List Sample} {points : List Point}
      (other : s.topic = topic → ∀ d, ¬ s.Measures name d) (onward : Plots topic name rest points) :
      Plots topic name (s :: rest) points

theorem Json.Value.double?_eq_some_iff {v : Value} {d : Double} : v.double? = some d ↔ v.Amounts d := by
  constructor
  · intro h
    cases v with
    | integer n => exact Option.some.inj h ▸ .integer n
    | float d => exact Option.some.inj h ▸ .float d
    | _ => exact nomatch h
  · rintro (_ | _) <;> rfl

namespace Sample

variable {s : Sample} {name : String} {d : Double}

/-- The number that is read under a name is the one that the sample measures. -/
theorem fieldDouble?_eq_some_iff : s.fieldDouble? name = some d ↔ s.Measures name d := by
  unfold fieldDouble? field?
  constructor
  · intro h
    obtain ⟨v, found, amounts⟩ := Option.bind_eq_some_iff.mp h
    have object : ∃ members, s.fields = .object members ∧ members.lookup name = some v := by
      unfold Value.get? at found
      split at found
      · rename_i members he
        exact ⟨members, he, found⟩
      · exact nomatch found
    obtain ⟨members, he, found⟩ := object
    obtain ⟨front, behind, rfl, first⟩ := List.lookup_eq_some_iff.mp found
    refine ⟨he, fun m hm same => ?_, Json.Value.double?_eq_some_iff.mp amounts⟩
    have other := first m hm
    simp [same] at other
  · rintro @⟨front, behind, v, members, first, amounts⟩
    have found : s.fields.get? name = some v := by
      rw [members]
      refine List.lookup_eq_some_iff.mpr ⟨front, behind, rfl, fun m hm => ?_⟩
      simpa using Ne.symm (first m hm)
    rw [found]
    exact Json.Value.double?_eq_some_iff.mpr amounts

def points (s : Sample) (key : WindowKey) : List Point :=
  if s.topic = key.topic then ((s.fieldDouble? key.series).map fun d => ⟨s.timestamp, d⟩).toList else []

end Sample

/-- The points of a series are those that the samples add to it. -/
theorem plots_flatMap (topic : Topic) (name : String) (samples : List Sample) :
    Plots topic name samples (samples.flatMap fun s => s.points ⟨topic, name⟩) := by
  induction samples with
  | nil => exact .nil
  | cons s rest ih =>
    rw [List.flatMap_cons]
    unfold Sample.points
    by_cases mine : s.topic = topic
    · rw [if_pos mine]
      cases found : s.fieldDouble? name with
      | none =>
        refine .skip (fun _ d measures => ?_) ih
        rw [Sample.fieldDouble?_eq_some_iff.mpr measures] at found
        exact nomatch found
      | some d => exact .point mine (Sample.fieldDouble?_eq_some_iff.mp found) ih
    · rw [if_neg mine]
      exact .skip (fun same => absurd same mine) ih

theorem Plots.unique {topic : Topic} {name : String} {samples : List Sample} {points points' : List Point}
    (h : Plots topic name samples points) (h' : Plots topic name samples points') : points = points' := by
  induction h generalizing points' with
  | nil =>
    cases h'
    rfl
  | point mine measures _ ih =>
    cases h' with
    | point _ measures' onward =>
      have same := Sample.fieldDouble?_eq_some_iff.mpr measures
      rw [Sample.fieldDouble?_eq_some_iff.mpr measures'] at same
      rw [ih onward, Option.some.inj same]
    | skip other _ => exact absurd measures (other mine _)
  | skip other _ ih =>
    cases h' with
    | point mine measures _ => exact absurd measures (other mine _)
    | skip _ onward => exact ih onward

/-! ## What fills the windows -/

namespace WindowSet

variable {α : Type}

/-- The window of a key, if it has one, after items have come; the first of them make one. -/
def grown (default_ : Nat) (w : Option (Window α)) : List α → Option (Window α)
  | [] => w
  | items => some ((w.getD (.empty default_)).backfill items)

theorem grown_append (default_ : Nat) (w : Option (Window α)) (first rest : List α) :
    grown default_ (grown default_ w first) rest = grown default_ w (first ++ rest) := by
  cases first with
  | nil => rfl
  | cons item first =>
    cases rest with
    | nil => rw [List.append_nil]; rfl
    | cons item' rest => exact congrArg some (Window.backfill_append _ _ _).symm

@[simp] theorem defaultCapacity_feedMember (s : WindowSet Point) (sample : Sample) (name : String) :
    (s.feedMember sample name).defaultCapacity = s.defaultCapacity := by
  unfold feedMember
  split <;> rfl

theorem window?_feedMember (s : WindowSet Point) (sample : Sample) (name : String) (key : WindowKey) :
    (s.feedMember sample name).window? key =
      if key.series = name then grown s.defaultCapacity (s.window? key) (sample.points key)
      else s.window? key := by
  obtain ⟨topic, series⟩ := key
  unfold feedMember Sample.points
  cases found : sample.fieldDouble? name with
  | none =>
    dsimp only
    by_cases mine : series = name
    · simp [mine, found, grown]
    · simp [mine]
  | some d =>
    dsimp only
    rw [window?_push]
    by_cases mine : series = name
    · subst mine
      by_cases here : sample.topic = topic
      · subst here
        simp only [found, if_pos]
        rfl
      · simp [here, Ne.symm here, grown]
    · simp [mine]

/-- **Different names fill different windows.** -/
theorem window?_feedSeries {names : List String} (distinct : names.Nodup) (s : WindowSet Point)
    (sample : Sample) (key : WindowKey) : (s.feedSeries names sample).window? key =
      if key.series ∈ names then grown s.defaultCapacity (s.window? key) (sample.points key)
      else s.window? key := by
  induction names generalizing s with
  | nil => simp [feedSeries]
  | cons name rest ih =>
    obtain ⟨alone, distinct⟩ := List.nodup_cons.mp distinct
    show ((s.feedMember sample name).feedSeries rest sample).window? key = _
    rw [ih distinct, window?_feedMember, defaultCapacity_feedMember]
    by_cases mine : key.series = name
    · simp [mine, alone]
    · simp [mine]

@[simp] theorem defaultCapacity_feedSeries (s : WindowSet Point) (names : List String) (sample : Sample) :
    (s.feedSeries names sample).defaultCapacity = s.defaultCapacity := by
  induction names generalizing s with
  | nil => rfl
  | cons name rest ih => exact (ih _).trans (defaultCapacity_feedMember s sample name)

theorem window?_foldl_feedSeries {names : List String} (distinct : names.Nodup) (s : WindowSet Point)
    (samples : List Sample) (key : WindowKey) : (samples.foldl (feedSeries · names) s).window? key =
      if key.series ∈ names then
        grown s.defaultCapacity (s.window? key) (samples.flatMap fun sample => sample.points key)
      else s.window? key := by
  induction samples generalizing s with
  | nil => simp [grown]
  | cons sample rest ih =>
    rw [List.foldl_cons, ih, window?_feedSeries distinct, defaultCapacity_feedSeries, List.flatMap_cons]
    split
    · rw [grown_append]
    · rfl

end WindowSet

/-! ## The listener -/

/-- What a callback makes of samples that it takes one after the other. -/
def Callback.takeAll {κ σ : Type} [Callback κ σ] : List Sample → κ → σ → κ × σ × List CallResult
  | [], callback, shared => (callback, shared, [])
  | sample :: rest, callback, shared =>
    let (callback, shared, result) := Callback.call callback sample shared
    let (callback, shared, results) := takeAll rest callback shared
    (callback, shared, result :: results)

namespace Listener

/-- A listener that charts never fails and does nothing but fill the windows of charts. -/
theorem takeAll_charting (names : List String) (samples : List Sample) (b : Notebook) :
    Callback.takeAll samples (charting names) b =
      (charting names, { b with charts := samples.foldl (WindowSet.feedSeries · names) b.charts },
        samples.map fun _ => .done) := by
  induction samples generalizing b with
  | nil => rfl
  | cons sample rest ih =>
    have first : Callback.call (charting names) sample b =
        (charting names, { b with charts := b.charts.feedSeries names sample }, .done) := rfl
    rw [Callback.takeAll, first]
    dsimp only
    rw [ih]
    rfl

/-- What a chart shows of a series. -/
structure Shows (capacity : Nat) (names : List String) (charts : WindowSet Point) (key : WindowKey)
    (points : List Point) : Prop where
  /-- There is no window for a name that is not listed, nor for one that never was a number. -/
  none_iff : charts.window? key = none ↔ key.series ∉ names ∨ points = []
  window : ∀ w, charts.window? key = some w → w.capacity = capacity ∧ w.items = points.rtake capacity
  snapshot : charts.snapshot key = if key.series ∈ names then points.rtake capacity else []

/-- The window of a series holds the last of its points. -/
theorem shows_feedSeries {names : List String} (distinct : names.Nodup) (capacity : Nat)
    (samples : List Sample) (key : WindowKey) :
    Shows capacity names (samples.foldl (WindowSet.feedSeries · names) (.empty capacity)) key
      (samples.flatMap fun s => s.points key) := by
  have found := WindowSet.window?_foldl_feedSeries distinct (.empty capacity) samples key
  generalize samples.foldl (WindowSet.feedSeries · names) (.empty capacity) = charts at found ⊢
  generalize samples.flatMap (fun s => s.points key) = points at found ⊢
  have items : ((Window.empty capacity).backfill points).items = points.rtake capacity :=
    Window.items_backfill _ _
  by_cases listed : key.series ∈ names
  · rw [if_pos listed] at found
    cases points with
    | nil =>
      have nothing : charts.window? key = none := found
      refine ⟨iff_of_true nothing (.inr rfl), fun w there => ?_, ?_⟩
      · exact nomatch nothing.symm.trans there
      · rw [WindowSet.snapshot, nothing, if_pos listed, List.rtake_nil]
    | cons first rest =>
      have there : charts.window? key = some ((Window.empty capacity).backfill (first :: rest)) := found
      refine ⟨?_, fun w there' => ?_, ?_⟩
      · simp [there, listed]
      · obtain rfl := Option.some.inj (there.symm.trans there')
        exact ⟨Window.capacity_backfill _ _, items⟩
      · rw [WindowSet.snapshot, there, if_pos listed]
        exact items
  · rw [if_neg listed] at found
    have nothing : charts.window? key = none := found
    refine ⟨iff_of_true nothing (.inl listed), fun w there => ?_, ?_⟩
    · exact nomatch nothing.symm.trans there
    · rw [WindowSet.snapshot, nothing, if_neg listed]

/-- **A chart shows the last points of each series.** A listener that charts takes any samples without
failing, and afterwards the window of each topic and listed name holds the last points of that series,
as many as its capacity allows: one for each sample on the topic whose first member of the name is a
number, which is the value, a whole number of 64 bits as the nearest double. No other window is made. -/
theorem charted_of_distinct {names : List String} (distinct : names.Nodup) (capacity : Nat)
    (samples : List Sample) : ∃ charts : WindowSet Point,
    Callback.takeAll samples (charting names) (.empty capacity) =
      (charting names, { Notebook.empty capacity with charts }, samples.map fun _ => .done) ∧
    (∀ topic name, ∃ points, Plots topic name samples points ∧
      (∀ points', Plots topic name samples points' → points' = points) ∧
      Shows capacity names charts ⟨topic, name⟩ points) ∧
    ∀ n : Int, Json.fitsWord n = true → (Double.ofInt n).Nearest n := by
  refine ⟨_, takeAll_charting names samples _, fun topic name => ?_, fun n => Json.nearest_ofInt⟩
  have plots := plots_flatMap topic name samples
  exact ⟨_, plots, fun points' plots' => plots'.unique plots, shows_feedSeries distinct capacity samples _⟩

/-- Samples of which some have a number where others have none, or none of that name. -/
def mixed : List Sample :=
  [⟨.alerts, 1, .object [("p50", .integer 1), ("rps", .string "n/a")]⟩, ⟨.alerts, 2, .null⟩,
    ⟨.alerts, 3, .object [("rps", .null), ("p50", .integer 2), ("p50", .integer 9)]⟩,
    ⟨.workerStatus, 4, .object [("p50", .integer 7), ("rps", .integer 8)]⟩,
    ⟨.alerts, 5, .object [("p50", .bool true)]⟩, ⟨.alerts, 6, .object [("p50", .integer 3)]⟩]

/-- Two points are left of three, and a name that never was a number has no window. -/
theorem charted_mixed : ["p50", "rps"].Nodup ∧ ∃ charts : WindowSet Point,
    Callback.takeAll mixed (charting ["p50", "rps"]) (.empty 2) =
      (charting ["p50", "rps"], { Notebook.empty 2 with charts }, mixed.map fun _ => .done) ∧
    charts.snapshot ⟨.alerts, "p50"⟩ = [⟨3, .ofInt 2⟩, ⟨6, .ofInt 3⟩] ∧
    charts.window? ⟨.alerts, "rps"⟩ = none := by
  have distinct : ["p50", "rps"].Nodup := by decide
  obtain ⟨charts, taken, series, -⟩ := charted_of_distinct distinct 2 mixed
  obtain ⟨latency, plots, -, shows⟩ := series .alerts "p50"
  obtain ⟨rate, plots', -, shows'⟩ := series .alerts "rps"
  refine ⟨distinct, charts, taken, ?_, shows'.none_iff.mpr (.inr ?_)⟩
  · rw [shows.snapshot, plots.unique (plots_flatMap .alerts "p50" mixed)]
    decide +kernel
  · rw [plots'.unique (plots_flatMap .alerts "rps" mixed)]
    decide +kernel

end Listener

end LiveMetrics
