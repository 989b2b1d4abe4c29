import PackPlan.Config.Yaml
import PackPlan.Proofs.Config.Json
import PackPlan.Proofs.Yaml.Record

/-!
# PackPlan.Proofs.Config.Yaml

Settings in YAML, on a line for each key. `Config.Given.lines` says how each level shows what is given
of it, `Config.Flawed` which documents have a key that is no field of its level, or a size that is not
positive. A document of what is given is read as the settings that JSON texts of the same are read as,
and a flawed document is not read (`yaml_agrees_with_json`).

Each level is read by the records of `PackPlan.Config.Yaml`, whose state agrees with the draft of what
is given however far the lines have been read; the drafts are those of `PackPlan.Proofs.Config.Json`.
-/

namespace PackPlan

open Yaml Document

/-! ## Limits -/

namespace Limits

/-- The fields, and what shows their values on the lines of a document. -/
def Draft.lines (d : Draft) : List (String × Yaml.Shown) :=
  [("max_ceiling", d.maxCeiling.map fun (n : Nat) content => content = .word (.ofInt n))]

theorem tracks_yamlRecord : yamlRecord.Tracks where
  names := by decide
  fit := by decide
  blank := List.forall_mem_singleton.2 rfl
  read := by
    intro f hf state t path n next h g hg
    rw [yamlRecord, List.mem_singleton] at hf hg
    subst hf hg
    obtain ⟨x, -, rfl⟩ := Field.plain_eq_ok.1 h
    simp [Field.plain]

theorem Draft.reads {d : Draft} (hd : d.IsInRange) :
    List.Forall₂ (fun f g => Field.Reads f (fun s => ∀ n ∈ s.maxCeiling, n ∈ d.maxCeiling) g)
      yamlRecord.fields d.lines := by
  refine .cons ⟨rfl, ?_⟩ .nil
  rintro _ hshows _ hcontent
  obtain ⟨n, hn, rfl⟩ := Option.map_eq_some_iff.1 hshows
  obtain rfl := hcontent
  exact ⟨trivial, fun s _ => ⟨_, Field.plain_takes (takes_count (hd n hn)), by simp [hn]⟩⟩

theorem Draft.takes_lines {d : Draft} {ls : Lines} {more : Nat} (hd : d.IsInRange)
    (h : Gives d.lines ls.toList) :
    ls.KeysFit ∧ Takes yamlRecord.read (.lines more ls) d.complete := by
  have hreads := Draft.reads hd
  refine ⟨Record.keysFit tracks_yamlRecord hreads h, Record.takes_lines tracks_yamlRecord
    (by simp [yamlRecord]) hreads (fun last hlast hgiven => ?_) h⟩
  cases hgiven with
  | cons hn _ =>
    have heq := eq_of_agrees hlast (by simpa [Field.plain] using hn)
    simp [yamlRecord, Draft.complete, heq]

end Limits

/-! ## The store -/

namespace CacheConfig

def Draft.lines (d : Draft) : List (String × Yaml.Shown) :=
  [("max_capacity", d.maxCapacity.map fun (n : Nat) content => content = .word (.ofInt n)),
    ("ttl_seconds", d.ttlSeconds.map fun (n : Nat) content => content = .word (.ofInt n))]

theorem tracks_yamlRecord : yamlRecord.Tracks where
  names := by decide
  fit := by decide
  blank := by
    intro f hf
    simp only [yamlRecord, List.mem_cons, List.not_mem_nil, or_false] at hf
    rcases hf with rfl | rfl <;> rfl
  read := by
    intro f hf state t path n next h g hg
    simp only [yamlRecord, List.mem_cons, List.not_mem_nil, or_false] at hf hg
    rcases hf with rfl | rfl <;>
    · obtain ⟨x, -, rfl⟩ := Field.plain_eq_ok.1 h
      rcases hg with rfl | rfl <;> simp [Field.plain]

theorem Draft.reads {d : Draft} (hd : d.IsInRange) :
    List.Forall₂ (fun f g => Field.Reads f (fun s => s.Agrees d) g) yamlRecord.fields d.lines := by
  refine .cons ⟨rfl, ?_⟩ (.cons ⟨rfl, ?_⟩ .nil)
  · rintro _ hshows _ hcontent
    obtain ⟨n, hn, rfl⟩ := Option.map_eq_some_iff.1 hshows
    obtain rfl := hcontent
    exact ⟨trivial, fun s hs => ⟨_, Field.plain_takes (takes_count (hd.maxCapacity n hn)),
      by simp [hn], hs.2⟩⟩
  · rintro _ hshows _ hcontent
    obtain ⟨n, hn, rfl⟩ := Option.map_eq_some_iff.1 hshows
    obtain rfl := hcontent
    exact ⟨trivial, fun s hs => ⟨_, Field.plain_takes (takes_count (hd.ttlSeconds n hn)), hs.1,
      by simp [hn]⟩⟩

theorem Draft.takes_lines {d : Draft} {ls : Lines} {more : Nat} (hd : d.IsInRange)
    (h : Gives d.lines ls.toList) :
    ls.KeysFit ∧ Takes yamlRecord.read (.lines more ls) d.complete := by
  have hreads := Draft.reads hd
  refine ⟨Record.keysFit tracks_yamlRecord hreads h, Record.takes_lines tracks_yamlRecord
    ⟨by simp [yamlRecord], by simp [yamlRecord]⟩ hreads (fun last hlast hgiven => ?_) h⟩
  cases hgiven with
  | cons hcapacity hrest =>
    cases hrest with
    | cons httl _ =>
      obtain rfl := hlast.eq (by simpa [Field.plain] using hcapacity)
        (by simpa [Field.plain] using httl)
      rfl

end CacheConfig

/-! ## Settings -/

namespace Config

/-- The fields, and what shows their values: the sizes as a list between brackets, the lower levels as
deeper lines. -/
def Given.lines (g : Given) : List (String × Yaml.Shown) :=
  [("default_sizes", g.sizes.map fun sizes content => ∃ blanks,
      content = .words blanks (sizes.map .ofInt)),
    ("cache", g.cache.map fun d content => ∃ more ls, content = .lines more ls ∧
      Gives d.lines ls.toList),
    ("limits", g.limits.map fun d content => ∃ more ls, content = .lines more ls ∧
      Gives d.lines ls.toList)]

section Reading

variable {sizes : List Int} {s : SizeSet} {ws : List Word} {x : Int} {g : Given} {d : Draft} {ls : Lines}
  {more : Nat}

theorem takes_sizesReader (blanks : Nat) (h : ∀ size ∈ sizes, IsQuantity size)
    (hs : SizeSet.ofList sizes = .ok s) : Takes sizesReader (.words blanks (sizes.map .ofInt)) s := by
  have hwords : List.Forall₂ (fun w x => Takes quantity (.word w) x) (sizes.map .ofInt) sizes := by
    rw [List.forall₂_map_left_iff, List.forall₂_same]
    exact fun size hm => takes_quantity (h size hm)
  intro t path n hn
  simp only [sizesReader, takes_list hwords t path n hn, hs]
  rfl

/-- A size that is not positive is in the way, whatever else the list holds. -/
theorem refuses_sizesReader {blanks : Nat} (hx : Word.ofInt x ∈ ws) (hle : x ≤ 0) :
    Refuses sizesReader (.words blanks ws) := by
  intro t path n set hn hread
  simp only [sizesReader] at hread
  split at hread
  · cases hread
  · rename_i xs hlist
    have hpos := (SizeSet.ofList_eq_ok.1 (mapError_eq_ok hread)).1 x (mem_of_list hn hlist hx)
    omega

theorem tracks_yamlRecord : yamlRecord.Tracks where
  names := by decide
  fit := by decide
  blank := by
    intro f hf
    simp only [yamlRecord, List.mem_cons, List.not_mem_nil, or_false] at hf
    rcases hf with rfl | rfl | rfl <;> rfl
  read := by
    intro f hf state t path n next h g hg
    simp only [yamlRecord, List.mem_cons, List.not_mem_nil, or_false] at hf hg
    rcases hf with rfl | rfl | rfl <;>
    · obtain ⟨x, -, rfl⟩ := Field.plain_eq_ok.1 h
      rcases hg with rfl | rfl | rfl <;> simp [Field.plain]

theorem Given.Fills.reads_lines (h : g.Fills d) (hg : g.IsInRange) :
    List.Forall₂ (fun f shown => Field.Reads f (fun s => s.Agrees d) shown) yamlRecord.fields
      g.lines := by
  have hmin : minQuantity ≤ 0 := by decide
  refine .cons ⟨rfl, ?_⟩ (.cons ⟨rfl, ?_⟩ (.cons ⟨rfl, ?_⟩ .nil))
  · rintro _ hshows _ hcontent
    obtain ⟨sizes, hsizes, rfl⟩ := Option.map_eq_some_iff.1 hshows
    obtain ⟨blanks, rfl⟩ := hcontent
    have hrel := h.sizes
    rw [hsizes] at hrel
    cases hd : d.defaultSizes with
    | none => rw [hd] at hrel; cases hrel
    | some s =>
      rw [hd] at hrel
      cases hrel with
      | some hs =>
        obtain ⟨-, hpos⟩ := hg.sizes sizes hsizes
        have htakes := takes_sizesReader blanks
          (fun size hm => ⟨by have := (hpos size hm).1; omega, (hpos size hm).2⟩) hs
        exact ⟨trivial, fun state ha => ⟨_, Field.plain_takes htakes, by simp [hd], ha.cache,
          ha.limits⟩⟩
  · rintro _ hshows _ hcontent
    obtain ⟨c, hc, rfl⟩ := Option.map_eq_some_iff.1 hshows
    obtain ⟨more, ls, rfl, hgives⟩ := hcontent
    obtain ⟨hfit, htakes⟩ := CacheConfig.Draft.takes_lines (hg.cache c hc) hgives
    exact ⟨hfit, fun state ha => ⟨_, Field.plain_takes htakes, ha.sizes, by simp [h.cache, hc],
      ha.limits⟩⟩
  · rintro _ hshows _ hcontent
    obtain ⟨l, hl, rfl⟩ := Option.map_eq_some_iff.1 hshows
    obtain ⟨more, ls, rfl, hgives⟩ := hcontent
    obtain ⟨hfit, htakes⟩ := Limits.Draft.takes_lines (hg.limits l hl) hgives
    exact ⟨hfit, fun state ha => ⟨_, Field.plain_takes htakes, ha.sizes, ha.cache,
      by simp [h.limits, hl]⟩⟩

theorem Given.Fills.takes_lines (h : g.Fills d) (more : Nat) (hg : g.IsInRange)
    (hgives : Gives g.lines ls.toList) :
    ls.KeysFit ∧ Takes yamlRecord.read (.lines more ls) d.complete := by
  have hreads := h.reads_lines hg
  refine ⟨Record.keysFit tracks_yamlRecord hreads hgives, Record.takes_lines tracks_yamlRecord
    ⟨by simp [yamlRecord], by simp [yamlRecord], by simp [yamlRecord]⟩ hreads
    (fun last hlast hgiven => ?_) hgives⟩
  cases hgiven with
  | cons hsizes hrest =>
    cases hrest with
    | cons hcache hrest =>
      cases hrest with
      | cons hlimits _ =>
        obtain rfl := h.eq_of_agrees hlast (by simpa [Field.plain] using hsizes)
          (by simpa [Field.plain] using hcache) (by simpa [Field.plain] using hlimits)
        rfl

end Reading

/-! ## Documents that are refused -/

/-- A line has a key that is none of these names. -/
def Stray (names : List String) (ls : Lines) : Prop :=
  ∃ line ∈ ls.toList, ∀ name ∈ names, line.1.text ≠ name.toList

/-- A key is no field of its level, or a size is not positive. -/
inductive Flawed : Lines → Prop where
  | top {ls : Lines} : Stray fieldNames ls → Flawed ls
  | cache {ls below : Lines} {key : Word} {more : Nat} : (key, .lines more below) ∈ ls.toList →
      key.text = "cache".toList → Stray ["max_capacity", "ttl_seconds"] below → Flawed ls
  | limits {ls below : Lines} {key : Word} {more : Nat} : (key, .lines more below) ∈ ls.toList →
      key.text = "limits".toList → Stray ["max_ceiling"] below → Flawed ls
  | size {ls : Lines} {key : Word} {blanks : Nat} {ws : List Word} {x : Int} :
      (key, .words blanks ws) ∈ ls.toList → key.text = "default_sizes".toList → Word.ofInt x ∈ ws →
      x ≤ 0 → Flawed ls

section Refusing

variable {σ α : Type} {r : Yaml.Record σ α} {ls : Lines} {more : Nat}

theorem Stray.refuses (h : Stray (r.fields.map Yaml.Field.name) ls) :
    Refuses r.read (.lines more ls) := by
  obtain ⟨line, hline, hstray⟩ := h
  refine Record.refuses_lines hline fun f hf hname => ?_
  exact absurd hname (hstray f.name (List.mem_map_of_mem hf))

theorem Flawed.refuses (h : Flawed ls) : Refuses yamlRecord.read (.lines more ls) := by
  cases h with
  | top hstray => exact Stray.refuses hstray
  | cache hline hkey hstray =>
    refine Record.refuses_lines hline fun f hf hname state => ?_
    have hcache : "cache" = f.name := String.toList_injective (hkey.symm.trans hname)
    simp only [yamlRecord, List.mem_cons, List.not_mem_nil, or_false] at hf
    rcases hf with rfl | rfl | rfl
    · exact absurd hcache (by decide)
    · exact Field.plain_refuses (Stray.refuses hstray)
    · exact absurd hcache (by decide)
  | limits hline hkey hstray =>
    refine Record.refuses_lines hline fun f hf hname state => ?_
    have hlimits : "limits" = f.name := String.toList_injective (hkey.symm.trans hname)
    simp only [yamlRecord, List.mem_cons, List.not_mem_nil, or_false] at hf
    rcases hf with rfl | rfl | rfl
    · exact absurd hlimits (by decide)
    · exact absurd hlimits (by decide)
    · exact Field.plain_refuses (Stray.refuses hstray)
  | size hline hkey hx hle =>
    refine Record.refuses_lines hline fun f hf hname state => ?_
    have hsizes : "default_sizes" = f.name := String.toList_injective (hkey.symm.trans hname)
    simp only [yamlRecord, List.mem_cons, List.not_mem_nil, or_false] at hf
    rcases hf with rfl | rfl | rfl
    · exact Field.plain_refuses (refuses_sizesReader hx hle)
    · exact absurd hsizes (by decide)
    · exact absurd hsizes (by decide)

end Refusing

/-- **The YAML reader and the JSON reader agree on settings.** A document that gives some of the fields,
one on each line and in any order, the lower levels on deeper lines, is read as the settings that any
JSON text of these fields is read as: what is given, and the defaults elsewhere. A document in which a
key is no field of its level, or a size is not positive, is not read. -/
theorem yaml_agrees_with_json :
    (∀ (g : Given) (ls : Lines) (yaml : String) ts (json : String), g.IsInRange →
      Gives g.lines ls.toList → ls.WritesText yaml → g.Shows ts → Json.Spells ts json.toList →
      ∃ c, ofYaml yaml = .ok c ∧ ofJson json = .ok c ∧ g.Makes c) ∧
    ∀ (ls : Lines) (yaml : String), Flawed ls → ls.WritesText yaml → ∃ e, ofYaml yaml = .error e := by
  constructor
  · intro g ls yaml ts json hg hgives hyaml hts hjson
    obtain ⟨d, hd⟩ := Given.exists_fills hg
    obtain ⟨hfit, htakes⟩ := hd.takes_lines 0 hg hgives
    obtain ⟨hv, hobject⟩ := hd.takes hg hts
    exact ⟨d.complete, Record.decode_lines htakes hfit hyaml, hobject.decode hv hjson, hd.makes⟩
  · intro ls yaml h hyaml
    exact Record.decode_refused h.refuses hyaml

/-- The levels in another order than that of the fields, and a third order in JSON; and a name that is
no field of the store. -/
theorem yaml_agrees_with_json_mixed :
    (∃ c, ofYaml "limits:\n  max_ceiling: 7\ndefault_sizes: [53, 23]\ncache:\n  ttl_seconds: 30\n" =
        .ok c ∧
      ofJson ("\x7b\"cache\":\x7b\"ttl_seconds\":30\x7d,\"limits\":\x7b\"max_ceiling\":7\x7d," ++
        "\"default_sizes\":[53,23]\x7d") = .ok c ∧
      Given.Makes ⟨some [53, 23], some ⟨none, some 30⟩, some ⟨some 7⟩⟩ c) ∧
    ∃ e, ofYaml "cache:\n  ttl: 5\n" = .error e := by
  let limits : Lines :=
    .one ⟨false, "max_ceiling".toList, by simp, by simp [isWordChar]⟩ (.word (.ofInt 7))
  let cache : Lines :=
    .one ⟨false, "ttl_seconds".toList, by simp, by simp [isWordChar]⟩ (.word (.ofInt 30))
  constructor
  · have hrange : Given.IsInRange ⟨some [53, 23], some ⟨none, some 30⟩, some ⟨some 7⟩⟩ := by
      refine ⟨?_, ?_, ?_⟩
      · rintro _ ⟨⟩; decide
      · rintro _ ⟨⟩; exact ⟨by rintro _ ⟨⟩, by rintro _ ⟨⟩; decide⟩
      · rintro _ ⟨⟩ _ ⟨⟩; decide
    refine yaml_agrees_with_json.1 _
      (.cons ⟨false, "limits".toList, by simp, by simp [isWordChar]⟩ (.lines 1 limits)
        (.cons ⟨false, "default_sizes".toList, by simp, by simp [isWordChar]⟩
          (.words 1 [.ofInt 53, .ofInt 23])
          (.one ⟨false, "cache".toList, by simp, by simp [isWordChar]⟩ (.lines 1 cache))))
      _ (Json.objectTokens
        [.plain "cache" (Json.objectTokens [.plain "ttl_seconds" (Json.numeral 30)]),
          .plain "limits" (Json.objectTokens [.plain "max_ceiling" (Json.numeral 7)]),
          .plain "default_sizes" (Given.sizesTokens [53, 23])]) _ hrange ?_ ?_ ?_ ?_
    · have hlimits : Gives (Limits.Draft.lines ⟨some 7⟩) limits.toList :=
        ⟨by decide, by simp [limits, Limits.Draft.lines, Lines.toList, Word.text],
          by simp [limits, Limits.Draft.lines, Lines.toList, Word.text]⟩
      have hcache : Gives (CacheConfig.Draft.lines ⟨none, some 30⟩) cache.toList :=
        ⟨by decide, by simp [cache, CacheConfig.Draft.lines, Lines.toList, Word.text],
          by simp [cache, CacheConfig.Draft.lines, Lines.toList, Word.text]⟩
      exact ⟨by decide, by simp [Given.lines, Lines.toList, Word.text, hlimits, hcache],
        by simp [Given.lines, Lines.toList, Word.text]⟩
    · refine ⟨[], by decide, ['\n'], by decide, ?_⟩
      simp [limits, cache, Lines.text, Content.text, newLine, listText, Word.text, Word.ofInt,
        List.replicate, Nat.toDigits, Nat.toDigitsCore, Nat.digitChar]
    · have hcache : Json.ShowsFields (CacheConfig.Draft.shown ⟨none, some 30⟩)
          (Json.objectTokens [.plain "ttl_seconds" (Json.numeral 30)]) :=
        .object ⟨by simp [CacheConfig.Draft.shown], by simp [CacheConfig.Draft.shown, Json.valuesOf],
          by simp [CacheConfig.Draft.shown, Json.valuesOf]⟩
      have hlimits : Json.ShowsFields (Limits.Draft.shown ⟨some 7⟩)
          (Json.objectTokens [.plain "max_ceiling" (Json.numeral 7)]) :=
        .object ⟨by simp [Limits.Draft.shown], by simp [Limits.Draft.shown],
          by simp [Limits.Draft.shown, Json.valuesOf]⟩
      exact .object ⟨by simp [Given.shown], by simp [Given.shown],
        by simp [Given.shown, Json.valuesOf, hlimits, hcache]⟩
    · have hcache : (Json.Member.plain "cache" _).Writes
          ("cache", Json.object [("ttl_seconds", "30")]) :=
        .mk (by decide) (Json.spells_object (.cons (.mk (by decide) (Json.spells_numeral 30)) .nil))
      have hlimits : (Json.Member.plain "limits" _).Writes
          ("limits", Json.object [("max_ceiling", "7")]) :=
        .mk (by decide) (Json.spells_object (.cons (.mk (by decide) (Json.spells_numeral 7)) .nil))
      have hsizes : (Json.Member.plain "default_sizes" (Given.sizesTokens [53, 23])).Writes
          ("default_sizes", Json.array ["53", "23"]) :=
        .mk (by decide) (Json.spells_array
          (.cons (Json.spells_numeral 53) (.cons (Json.spells_numeral 23) .nil)))
      have htext := Json.spells_object (.cons hcache (.cons hlimits (.cons hsizes .nil)))
      exact htext
  · refine yaml_agrees_with_json.2
      (.one ⟨false, "cache".toList, by simp, by simp [isWordChar]⟩ (.lines 1
        (.one ⟨false, "ttl".toList, by simp, by simp [isWordChar]⟩ (.word (.ofInt 5))))) _
      (.cache List.mem_cons_self rfl ⟨_, List.mem_cons_self, by decide⟩)
      ⟨[], by decide, ['\n'], by decide, rfl⟩

end Config
end PackPlan
