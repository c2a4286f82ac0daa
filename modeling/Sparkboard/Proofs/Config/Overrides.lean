import Sparkboard.Files.Load
import Sparkboard.Proofs.Config.Fields
import Sparkboard.Proofs.Dashboard.ChartSteps
import Sparkboard.Proofs.Text.Utf8
/-!
# Configurations override what they name

A text that names settings is read as the configuration with the values that it gives and the
defaults of all others, in whatever order they stand and however they are spelled
(`exists_overrides`).  A text with a name that is no setting, or with one name twice, is refused
(`parse_refused`).  The lengths of time are passed on without loss (`nanos_delay`), also to the
charts that are drawn (`animation_of_draw`).
-/

namespace Sparkboard

open Json (Node SpellsDocument SpellsMembers parse)

namespace Config

variable {settings : List Setting} {text : String} {labels : List String} {values : List Float}
  {key : String} {generation : Nat} {d d' : Dashboard}

/-! ## Texts -/

/-- Does the text spell an object with these members? -/
def SpellsObject (text : String) (ms : List (String × Node)) : Prop :=
  SpellsDocument text.toList (.object (.ofNodes ms))

/-- Settings that are named once each are read into a draft, which is completed. -/
theorem parse_settings (hn : settings.NodupKeys)
    (h : SpellsObject text (settings.map Setting.member)) :
    parse reader text = .ok (settings.foldl Draft.put {}).complete := by
  rw [Json.parse_spells h]
  exact Json.record_eq_ok.2 ⟨_, members_settings hn fun x _ => Draft.get?_nothing x.1, rfl⟩

/-- Settings override the defaults, whatever their order. -/
theorem exists_overrides (hn : settings.NodupKeys) : ∃ c : Config,
    (∀ f, c.get f = (settings.dlookup f).getD (default.get f)) ∧
    ∀ (order : List Setting) (text : String), order.Perm settings →
      SpellsObject text (order.map Setting.member) → parse reader text = .ok c := by
  have hget (order : List Setting) (ho : order.NodupKeys) (f : Field) :
      (order.foldl Draft.put {}).complete.get f = (order.dlookup f).getD (default.get f) := by
    rw [Draft.get_complete, get?_putAll ho, Draft.get?_nothing, Option.or_none]
  refine ⟨_, hget settings hn, fun order text hperm h => ?_⟩
  have ho : order.NodupKeys := (List.perm_nodupKeys hperm).2 hn
  rw [parse_settings ho h, Except.ok.injEq]
  refine ext_get fun f => ?_
  rw [hget order ho, hget settings hn, List.perm_dlookup f ho hperm]

/-- A name that is no setting is refused, and so is one that stands there twice. -/
theorem parse_refused {ms : List (String × Node)} (h : SpellsObject text ms)
    (hbad : (∃ m ∈ ms, ∀ f : Field, m.1 ≠ f.name) ∨ ¬(ms.map Prod.fst).Nodup) :
    ∃ e, parse reader text = .error e := by
  cases hread : parse reader text with
  | error e => exact ⟨e, rfl⟩
  | ok c =>
    rw [Json.parse_spells h] at hread
    obtain ⟨d, hmembers, -⟩ := Json.record_eq_ok.1 hread
    obtain ⟨hnamed, hnodup⟩ := named_of_members hmembers
    rcases hbad with ⟨m, hm, hunknown⟩ | htwice
    · obtain ⟨f, hf, -⟩ := hnamed m hm
      exact absurd hf (hunknown f)
    · exact absurd hnodup htwice

theorem loadConfig_eq {t : FileTree} {path : String} (h : t.read path = .ok (Utf8.encode text)) :
    t.loadConfig path = (parse reader text).mapError (.json s!"parsing config {path}") := by
  unfold FileTree.loadConfig
  simp only [h, Utf8.text?_encode]
  cases parse reader text <;> rfl

/-! ## Lengths of time -/

/-- A dashboard takes a setting for so many milliseconds. -/
theorem nanos_delay (c : Config) (s : Span) : (c.delay s).nanos = (c.ms s).toNat * 1000000 := by
  cases s <;> rfl

theorem millis_delay (c : Config) (s : Span) : (c.delay s).millis = (c.ms s).toNat := by
  unfold Duration.millis
  rw [nanos_delay]
  exact Nat.mul_div_cancel _ (by decide)

/-- A draw starts the animation that the configuration names, for as long as this says. -/
theorem animation_of_draw (h : (d.draw labels values key).result = .ok (.ok generation, d')) :
    ∃ target, d'.target? key = some target ∧ target.root.animation =
      some ⟨d.config.animationName, d.config.animationDurationMs.toNat⟩ := by
  cases Dashboard.draws_of_draw h with
  | came =>
    refine ⟨_, Dashboard.get?_drawn .., ?_⟩
    have hms : d.config.animator.duration.millis = d.config.animationDurationMs.toNat :=
      d.config.millis_delay .animationDuration
    have hlt : d.config.animationDurationMs.toNat < Nat.pow 2 64 :=
      d.config.animationDurationMs.toNat_lt
    show some (Animation.mk _ (d.config.animator.duration.millis % Nat.pow 2 64)) = _
    rw [hms, Nat.mod_eq_of_lt hlt]
    rfl

/-- A configuration overrides exactly what it names: settings that are named once each, in any order
and however spelled, have the values that are given, and all others have their defaults; a document
in which a name is no setting, or stands twice, is refused.  Files are read as their text.  A
dashboard takes every length of time for what it was set to, to the nanosecond, and notes the length
of the animation unchanged on the charts that it draws. -/
theorem overrides_exactly_what_is_named :
    (∀ settings : List Setting, settings.NodupKeys → ∃ c : Config,
      (∀ f, c.get f = (settings.dlookup f).getD (default.get f)) ∧
      ∀ (order : List Setting) (text : String), order.Perm settings →
        SpellsObject text (order.map Setting.member) → parse reader text = .ok c) ∧
    (∀ (ms : List (String × Node)) (text : String), SpellsObject text ms →
      (∃ m ∈ ms, ∀ f : Field, m.1 ≠ f.name) ∨ ¬(ms.map Prod.fst).Nodup →
        ∃ e, parse reader text = .error e) ∧
    (∀ (t : FileTree) (path text : String), t.read path = .ok (Utf8.encode text) →
      t.loadConfig path = (parse reader text).mapError (.json s!"parsing config {path}")) ∧
    (∀ c : Config, c.animator.name = c.get .animationName ∧ ∀ s : Span,
      (c.delay s).nanos = UInt64.toNat (c.get (.span s)) * 1000000 ∧
        (c.delay s).millis = UInt64.toNat (c.get (.span s))) ∧
    ∀ (d d' : Dashboard) (labels : List String) (values : List Float) (key : String)
      (generation : Nat), (d.draw labels values key).result = .ok (.ok generation, d') →
        ∃ target, d'.target? key = some target ∧ target.root.animation =
          some ⟨d.config.animationName, d.config.animationDurationMs.toNat⟩ :=
  ⟨fun _ hn => exists_overrides hn, fun _ _ h hbad => parse_refused h hbad,
    fun _ _ _ h => loadConfig_eq h,
    fun c => ⟨rfl, fun s => ⟨c.nanos_delay s, c.millis_delay s⟩⟩,
    fun _ _ _ _ _ _ h => animation_of_draw h⟩

/-- The longest length of time and a name, not in their declared order, with blanks and escapes. -/
def longestTick : String :=
  "\x7b \"loading_tick_ms\" : 18446744073709551615,\n\"\\u0061nimation_name\":\"A\\n\"\x7d\n"

theorem spells_longestTick : SpellsObject longestTick
    [("loading_tick_ms", .integer 18446744073709551615), ("animation_name", .string "A\n")] := by
  have hspace : Json.Blanks [' '] := List.forall_mem_singleton.2 rfl
  have hline : Json.Blanks ['\n'] := List.forall_mem_singleton.2 rfl
  have hlongest := Json.spells_integer 18446744073709551615
  rw [Json.node_ofInt (by decide) (by decide)] at hlongest
  have hunit : Json.Node.IsUnit ['0', '0', '6', '1'] 0x61 :=
    ⟨_, _, _, _, 0, 0, 6, 1, rfl, rfl, rfl, rfl, rfl, rfl⟩
  have hname : Json.Node.Quotes "\\u0061nimation_name".toList "animation_name".toList :=
    .number hunit (by decide) (Json.Node.quotes_flatMap_escape "nimation_name".toList)
  have hvalue : Json.Node.Quotes "A\\n".toList "A\n".toList :=
    .plain (by decide) (by decide) (by decide) (.letter rfl .nil)
  have hmembers := SpellsMembers.member (.first hspace)
    (Json.Node.quotes_flatMap_escape "loading_tick_ms".toList) hspace hspace
    hlongest (.member (.next Json.blanks_nil hline) hname Json.blanks_nil
      Json.blanks_nil (.string hvalue) (.close Json.blanks_nil))
  exact ⟨[], _, ['\n'], rfl, Json.blanks_nil, hline, .object hmembers⟩

/-- Two settings are overridden and the others have their defaults, the longest length of time is
passed on, and another name is refused. -/
theorem overrides_longestTick :
    (∃ c : Config, (FileTree.empty.add "a.json" (.file (Utf8.encode longestTick))).loadConfig
        "a.json" = .ok c ∧
      c.animationName = "A\n" ∧ c.barTiming.tick.millis = 18446744073709551615 ∧
      c.refreshDelay.millis = 1500) ∧
    (∃ e, parse reader (Json.object [("refresh", .integer 1)]).compact = .error e) ∧
    ∃ d' target, (({ Dashboard.new .default with charts := ⟨[("ssh", .fresh)]⟩ }).draw
        ["1", "2", "3", "4"] [1.0, 2.0, 3.0, 4.0] "ssh").result = .ok (.ok 1, d') ∧
      d'.target? "ssh" = some target ∧ target.root.animation = some ⟨"loadChart", 1000⟩ := by
  obtain ⟨hoverrides, hrefuses, hfile, hdelay, hdraw⟩ := overrides_exactly_what_is_named
  refine ⟨?_, ?_, ?_⟩
  · obtain ⟨c, hget, hparse⟩ := hoverrides
      [⟨.animationName, "A\n"⟩, ⟨.span .loadingTick, (18446744073709551615 : UInt64)⟩]
      (by unfold List.NodupKeys; decide)
    have hread : (FileTree.empty.add "a.json" (.file (Utf8.encode longestTick))).read "a.json" =
        .ok (Utf8.encode longestTick) := by decide +kernel
    refine ⟨c, ?_, hget .animationName, ?_, ?_⟩
    · rw [hfile _ _ _ hread, hparse _ _ (.swap _ _ _) spells_longestTick]
      rfl
    · exact ((hdelay c).2 .loadingTick).2.trans (congrArg UInt64.toNat (hget (.span .loadingTick)))
    · exact ((hdelay c).2 .refreshDelay).2.trans
        (congrArg UInt64.toNat (hget (.span .refreshDelay)))
  · refine hrefuses [("refresh", .integer 1)] _ ?_ (.inl ⟨_, List.mem_singleton_self _, ?_⟩)
    · unfold SpellsObject
      rw [Json.compact, String.toList_ofList]
      exact (Json.spells_compactChars (.object [("refresh", .integer 1)])).document
    · intro f
      cases f with
      | animationName => decide
      | span s => cases s <;> decide
  · obtain ⟨target, htarget, hanimation⟩ := hdraw
      { Dashboard.new .default with charts := ⟨[("ssh", .fresh)]⟩ } _ ["1", "2", "3", "4"]
      [1.0, 2.0, 3.0, 4.0] "ssh" 1 rfl
    exact ⟨_, target, rfl, htarget, hanimation⟩

end Config

end Sparkboard
