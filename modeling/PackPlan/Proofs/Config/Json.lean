import PackPlan.Config.Json
import PackPlan.Proofs.Json.Defaults
import PackPlan.Proofs.Json.Writer
import PackPlan.Proofs.SizeSet.Construction

/-!
# PackPlan.Proofs.Config.Json

Settings that are given in part. `Config.Given` is what a document may give, `Config.Given.Makes` the
settings that this makes: what is given, and the defaults elsewhere. `Config.Given.Shows` lists the
JSON values that give it, where each of the three levels is an object of its fields in any order or the
list of its first fields. Whichever it is, and however it is spelled, it is read as these settings, and
an object with another name or a name that stands twice, on any level, is not read
(`given_over_defaults`).
-/

namespace PackPlan

open Json Document

theorem eq_of_agrees {β : Type} {o given : Option β} (h : ∀ x ∈ o, x ∈ given)
    (hs : o.isSome = given.isSome) : o = given := by
  cases o with
  | none => cases given <;> simp_all
  | some x => exact (h x rfl).symm

/-! ## Limits -/

namespace Limits

/-- What is given fits 64 bits. -/
def Draft.IsInRange (d : Draft) : Prop := ∀ n ∈ d.maxCeiling, n ≤ maxCount

/-- The fields, and what shows their values. -/
def Draft.shown (d : Draft) : List (String × Shown) :=
  [("max_ceiling", d.maxCeiling.map fun (n : Nat) ts => ts = numeral n)]

theorem hasWholeFields_jsonRecord : jsonRecord.HasWholeFields := by
  intro f hf state
  rw [jsonRecord, List.mem_singleton] at hf
  rw [hf]
  exact Field.plain_whole whole_count

theorem tracks_jsonRecord : jsonRecord.Tracks where
  names := by decide
  blank := List.forall_mem_singleton.2 rfl
  read := by
    intro f hf state ts next rest h g hg
    rw [jsonRecord, List.mem_singleton] at hf hg
    subst hf hg
    obtain ⟨x, -, rfl⟩ := Field.plain_eq_ok.1 h
    simp [Field.plain]

theorem Draft.takes {d : Draft} {ts : List Token} (hd : d.IsInRange) (h : ShowsFields d.shown ts) :
    IsValue ts ∧ Takes jsonRecord.read ts d.complete := by
  have hreads : List.Forall₂
      (fun f g => Field.Reads f (fun s => ∀ n ∈ s.maxCeiling, n ∈ d.maxCeiling) g)
      jsonRecord.fields d.shown := by
    refine .cons ⟨rfl, ?_⟩ .nil
    rintro _ hshows value hvalue
    obtain ⟨n, hn, rfl⟩ := Option.map_eq_some_iff.1 hshows
    subst hvalue
    exact ⟨isValue_numeral n, fun s _ => ⟨_, Field.plain_takes (takes_count_numeral (hd n hn)),
      by simp [hn]⟩⟩
  refine ⟨h.isValue hreads, Record.takes_fields hasWholeFields_jsonRecord tracks_jsonRecord
    (by simp [jsonRecord]) hreads (fun last hlast hgiven => ?_) h⟩
  cases hgiven with
  | cons hn _ =>
    have heq := eq_of_agrees hlast (by simpa [Field.plain] using hn)
    simp [jsonRecord, Draft.complete, heq]

end Limits

/-! ## The store -/

namespace CacheConfig

structure Draft.IsInRange (d : Draft) : Prop where
  maxCapacity : ∀ n ∈ d.maxCapacity, n ≤ maxCount
  ttlSeconds : ∀ n ∈ d.ttlSeconds, n ≤ maxCount

def Draft.shown (d : Draft) : List (String × Shown) :=
  [("max_capacity", d.maxCapacity.map fun (n : Nat) ts => ts = numeral n),
    ("ttl_seconds", d.ttlSeconds.map fun (n : Nat) ts => ts = numeral n)]

theorem hasWholeFields_jsonRecord : jsonRecord.HasWholeFields := by
  intro f hf state
  simp only [jsonRecord, List.mem_cons, List.not_mem_nil, or_false] at hf
  rcases hf with rfl | rfl <;> exact Field.plain_whole whole_count

theorem tracks_jsonRecord : jsonRecord.Tracks where
  names := by decide
  blank := by
    intro f hf
    simp only [jsonRecord, List.mem_cons, List.not_mem_nil, or_false] at hf
    rcases hf with rfl | rfl <;> rfl
  read := by
    intro f hf state ts next rest h g hg
    simp only [jsonRecord, List.mem_cons, List.not_mem_nil, or_false] at hf hg
    rcases hf with rfl | rfl <;>
    · obtain ⟨x, -, rfl⟩ := Field.plain_eq_ok.1 h
      rcases hg with rfl | rfl <;> simp [Field.plain]

/-- What is given so far is given. -/
def Draft.Agrees (state d : Draft) : Prop :=
  (∀ n ∈ state.maxCapacity, n ∈ d.maxCapacity) ∧ ∀ n ∈ state.ttlSeconds, n ∈ d.ttlSeconds

/-- Once all that is given has been read, it is what has been read. -/
theorem Draft.Agrees.eq {last d : Draft} (h : last.Agrees d)
    (hcapacity : last.maxCapacity.isSome = d.maxCapacity.isSome)
    (httl : last.ttlSeconds.isSome = d.ttlSeconds.isSome) : last = d := by
  have hc := eq_of_agrees h.1 hcapacity
  have ht := eq_of_agrees h.2 httl
  cases last
  simp only at hc ht
  rw [hc, ht]

theorem Draft.takes {d : Draft} {ts : List Token} (hd : d.IsInRange) (h : ShowsFields d.shown ts) :
    IsValue ts ∧ Takes jsonRecord.read ts d.complete := by
  have hreads : List.Forall₂ (fun f g => Field.Reads f (fun s => s.Agrees d) g)
      jsonRecord.fields d.shown := by
    refine .cons ⟨rfl, ?_⟩ (.cons ⟨rfl, ?_⟩ .nil)
    · rintro _ hshows value hvalue
      obtain ⟨n, hn, rfl⟩ := Option.map_eq_some_iff.1 hshows
      subst hvalue
      exact ⟨isValue_numeral n, fun s hs => ⟨_,
        Field.plain_takes (takes_count_numeral (hd.maxCapacity n hn)), by simp [hn], hs.2⟩⟩
    · rintro _ hshows value hvalue
      obtain ⟨n, hn, rfl⟩ := Option.map_eq_some_iff.1 hshows
      subst hvalue
      exact ⟨isValue_numeral n, fun s hs => ⟨_,
        Field.plain_takes (takes_count_numeral (hd.ttlSeconds n hn)), hs.1, by simp [hn]⟩⟩
  refine ⟨h.isValue hreads, Record.takes_fields hasWholeFields_jsonRecord tracks_jsonRecord
    ⟨by simp [jsonRecord], by simp [jsonRecord]⟩ hreads (fun last hlast hgiven => ?_) h⟩
  cases hgiven with
  | cons hcapacity hrest =>
    cases hrest with
    | cons httl _ =>
      obtain rfl := hlast.eq (by simpa [Field.plain] using hcapacity)
        (by simpa [Field.plain] using httl)
      exact ⟨rfl, fun _ => rfl⟩

end CacheConfig

/-! ## Settings -/

namespace Config

/-- What a document gives of the settings: a list of sizes, and each of the lower levels as far as it
is given. -/
structure Given where
  sizes : Option (List Int) := none
  cache : Option CacheConfig.Draft := none
  limits : Option Limits.Draft := none
deriving DecidableEq, Repr

namespace Given

/-- The sizes are positive, and there are some; all numbers fit 64 bits. -/
structure IsInRange (g : Given) : Prop where
  sizes : ∀ sizes ∈ g.sizes, sizes ≠ [] ∧ ∀ size ∈ sizes, 0 < size ∧ size ≤ maxQuantity
  cache : ∀ d ∈ g.cache, d.IsInRange
  limits : ∀ d ∈ g.limits, d.IsInRange

/-- The settings have what is given, and the defaults elsewhere. A set of sizes is in descending order
anyway. -/
structure Makes (g : Given) (c : Config) : Prop where
  sizes : ∀ sizes ∈ g.sizes, ∀ n : Nat, n ∈ c.defaultSizes.toList ↔ (n : Int) ∈ sizes
  standard : g.sizes = none → c.defaultSizes = ({} : Config).defaultSizes
  maxCapacity : c.cache.maxCapacity =
    (g.cache.bind fun d => d.maxCapacity).getD ({} : CacheConfig).maxCapacity
  ttlSeconds : c.cache.ttlSeconds =
    (g.cache.bind fun d => d.ttlSeconds).getD ({} : CacheConfig).ttlSeconds
  maxCeiling : c.limits.maxCeiling =
    (g.limits.bind fun d => d.maxCeiling).getD ({} : Limits).maxCeiling

/-- A list of sizes as it is written. -/
def sizesTokens (sizes : List Int) : List Token := listTokens (sizes.map numeral)

def shown (g : Given) : List (String × Shown) :=
  [("default_sizes", g.sizes.map fun sizes ts => ts = sizesTokens sizes),
    ("cache", g.cache.map fun d => ShowsFields d.shown),
    ("limits", g.limits.map fun d => ShowsFields d.shown)]

/-- The JSON values that give the settings. -/
def Shows (g : Given) (ts : List Token) : Prop := ShowsFields g.shown ts

/-- The draft holds what is given, the lower levels completed. -/
structure Fills (g : Given) (d : Draft) : Prop where
  sizes : Option.Rel (fun sizes s => SizeSet.ofList sizes = .ok s) g.sizes d.defaultSizes
  cache : d.cache = g.cache.map CacheConfig.Draft.complete
  limits : d.limits = g.limits.map Limits.Draft.complete

section Given

variable {g : Given} {d : Draft}

theorem exists_fills (hg : g.IsInRange) : ∃ d, g.Fills d := by
  cases hsizes : g.sizes with
  | none => exact ⟨⟨none, _, _⟩, ⟨hsizes ▸ .none, rfl, rfl⟩⟩
  | some sizes =>
    obtain ⟨hne, hpos⟩ := hg.sizes sizes hsizes
    obtain ⟨s, hs⟩ := SizeSet.exists_ofList hne fun size hm => (hpos size hm).1
    exact ⟨⟨some s, _, _⟩, ⟨hsizes ▸ .some hs.1, rfl, rfl⟩⟩

theorem Fills.makes (h : g.Fills d) : g.Makes d.complete where
  sizes := by
    intro sizes hm n
    have hrel := h.sizes
    rw [Option.mem_def.1 hm] at hrel
    cases hd : d.defaultSizes with
    | none => rw [hd] at hrel; cases hrel
    | some s =>
      rw [hd] at hrel
      cases hrel with
      | some hs =>
        obtain ⟨hpos, hset⟩ := SizeSet.ofList_eq_ok.1 hs
        simp only [Draft.complete, hd, Option.getD_some, SizeSet.mem_ofPositives? hset,
          and_iff_left_iff_imp]
        exact fun hn => Int.natCast_pos.1 (hpos _ hn)
  standard := by
    intro hnone
    have hrel := h.sizes
    rw [hnone] at hrel
    cases hd : d.defaultSizes with
    | none => simp [Draft.complete, hd]
    | some s => rw [hd] at hrel; cases hrel
  maxCapacity := by
    rw [Draft.complete, h.cache]
    cases g.cache <;> rfl
  ttlSeconds := by
    rw [Draft.complete, h.cache]
    cases g.cache <;> rfl
  maxCeiling := by
    rw [Draft.complete, h.limits]
    cases g.limits <;> rfl

end Given
end Given

/-! ## Reading settings -/

section Reading

variable {state next : Draft} {ts : List Token} {sizes : List Int} {s : SizeSet}

theorem sizesField_eq_ok {ps left : List Placed} :
    sizesField.read state ps = .ok (.ok next, left) ↔ ∃ sizes s, list quantity ps = .ok (sizes, left) ∧
      SizeSet.ofList sizes = .ok s ∧ next = { state with defaultSizes := some s } := by
  simp only [sizesField, SizeSet.jsonReader]
  cases hlist : list quantity ps with
  | error e => simp
  | ok read =>
    obtain ⟨sizes, rest⟩ := read
    cases hset : SizeSet.ofList sizes with
    | error cause => simp [Except.mapError, Except.map, hset]
    | ok s =>
      simp only [hset, Except.mapError, Except.map, Except.ok.injEq, Prod.mk.injEq]
      constructor
      · rintro ⟨rfl, rfl⟩
        exact ⟨sizes, s, ⟨rfl, rfl⟩, hset, rfl⟩
      · rintro ⟨_, _, ⟨rfl, rfl⟩, hs, rfl⟩
        rw [hset] at hs
        cases hs
        exact ⟨rfl, rfl⟩

theorem takes_sizes (h : Takes (list quantity) ts sizes) (hs : SizeSet.ofList sizes = .ok s) :
    Takes (sizesField.read state) ts (.ok { state with defaultSizes := some s }) :=
  fun ps rest hps => sizesField_eq_ok.2 ⟨sizes, s, h ps rest hps, hs, rfl⟩

/-- Whatever is made of it, a list of sizes is read to its end. -/
theorem whole_sizesField : Whole (sizesField.read state) := by
  intro ps rest x left hv h
  have hwhole : Whole (list quantity) := Whole.list whole_integer
  simp only [sizesField, SizeSet.jsonReader] at h
  cases hlist : list quantity (ps ++ rest) with
  | error e => rw [hlist] at h; cases h
  | ok read =>
    obtain ⟨sizes, after⟩ := read
    rw [hlist] at h
    obtain ⟨htakes, rfl⟩ := hwhole ps rest sizes after hv hlist
    cases h
    refine ⟨fun qs others hqs => ?_, rfl⟩
    simp only [sizesField, SizeSet.jsonReader, htakes qs others hqs]

theorem hasWholeFields_jsonRecord : jsonRecord.HasWholeFields := by
  intro f hf state
  simp only [jsonRecord, List.mem_cons, List.not_mem_nil, or_false] at hf
  rcases hf with rfl | rfl | rfl
  · exact whole_sizesField
  · exact Field.plain_whole (Record.whole CacheConfig.hasWholeFields_jsonRecord)
  · exact Field.plain_whole (Record.whole Limits.hasWholeFields_jsonRecord)

theorem tracks_jsonRecord : jsonRecord.Tracks where
  names := by decide
  blank := by
    intro f hf
    simp only [jsonRecord, List.mem_cons, List.not_mem_nil, or_false] at hf
    rcases hf with rfl | rfl | rfl <;> rfl
  read := by
    intro f hf state ts next rest h g hg
    simp only [jsonRecord, List.mem_cons, List.not_mem_nil, or_false] at hf hg
    rcases hf with rfl | rfl | rfl
    · obtain ⟨_, _, -, -, rfl⟩ := sizesField_eq_ok.1 h
      rcases hg with rfl | rfl | rfl <;> simp [sizesField, Field.plain]
    all_goals
      obtain ⟨x, -, rfl⟩ := Field.plain_eq_ok.1 h
      rcases hg with rfl | rfl | rfl <;> simp [sizesField, Field.plain]

theorem takes_sizesTokens (h : ∀ size ∈ sizes, IsQuantity size) :
    IsValue (Given.sizesTokens sizes) ∧ Takes (list quantity) (Given.sizesTokens sizes) sizes := by
  have hvalues : ∀ row ∈ sizes.map numeral, IsValue row :=
    List.forall_mem_map.2 fun size _ => isValue_numeral size
  refine ⟨.list hvalues, takes_list whole_integer hvalues ?_⟩
  rw [List.forall₂_map_left_iff, List.forall₂_same]
  exact fun size hm => takes_quantity (h size hm)

/-- What is given so far is what the draft holds. -/
structure Draft.Agrees (state d : Draft) : Prop where
  sizes : ∀ s ∈ state.defaultSizes, s ∈ d.defaultSizes
  cache : ∀ c ∈ state.cache, c ∈ d.cache
  limits : ∀ l ∈ state.limits, l ∈ d.limits

variable {g : Given} {d : Draft}

/-- Once all that is given has been read, the state is the draft. -/
theorem Given.Fills.eq_of_agrees {last : Draft} (h : g.Fills d) (ha : last.Agrees d)
    (hsizes : last.defaultSizes.isSome = g.sizes.isSome) (hcache : last.cache.isSome = g.cache.isSome)
    (hlimits : last.limits.isSome = g.limits.isSome) : last = d := by
  have hsome : g.sizes.isSome = d.defaultSizes.isSome := by
    have hrel := h.sizes
    revert hrel
    cases d.defaultSizes <;> cases g.sizes <;> rintro ⟨⟩ <;> rfl
  have hs := PackPlan.eq_of_agrees ha.sizes (hsizes.trans hsome)
  have hc := PackPlan.eq_of_agrees ha.cache (by simpa [h.cache] using hcache)
  have hl := PackPlan.eq_of_agrees ha.limits (by simpa [h.limits] using hlimits)
  cases last
  simp only at hs hc hl
  rw [hs, hc, hl]

theorem Given.Fills.reads (h : g.Fills d) (hg : g.IsInRange) :
    List.Forall₂ (fun f shown => Field.Reads f (fun s => s.Agrees d) shown) jsonRecord.fields
      g.shown := by
  have hmin : minQuantity ≤ 0 := by decide
  refine .cons ⟨rfl, ?_⟩ (.cons ⟨rfl, ?_⟩ (.cons ⟨rfl, ?_⟩ .nil))
  · rintro _ hshows value hvalue
    obtain ⟨sizes, hsizes, rfl⟩ := Option.map_eq_some_iff.1 hshows
    have hrel := h.sizes
    rw [hsizes] at hrel
    cases hd : d.defaultSizes with
    | none => rw [hd] at hrel; cases hrel
    | some s =>
      rw [hd] at hrel
      cases hrel with
      | some hs =>
        obtain ⟨-, hpos⟩ := hg.sizes sizes hsizes
        have hvalues := takes_sizesTokens fun size hm =>
          ⟨by have := (hpos size hm).1; omega, (hpos size hm).2⟩
        rw [show value = sizesTokens sizes from hvalue]
        exact ⟨hvalues.1, fun state ha => ⟨_, takes_sizes hvalues.2 hs, by simp [hd], ha.cache,
          ha.limits⟩⟩
  · rintro _ hshows value hvalue
    obtain ⟨c, hc, rfl⟩ := Option.map_eq_some_iff.1 hshows
    obtain ⟨hv, htakes⟩ := CacheConfig.Draft.takes (hg.cache c hc) hvalue
    exact ⟨hv, fun state ha => ⟨_, Field.plain_takes htakes, ha.sizes, by simp [h.cache, hc],
      ha.limits⟩⟩
  · rintro _ hshows value hvalue
    obtain ⟨l, hl, rfl⟩ := Option.map_eq_some_iff.1 hshows
    obtain ⟨hv, htakes⟩ := Limits.Draft.takes (hg.limits l hl) hvalue
    exact ⟨hv, fun state ha => ⟨_, Field.plain_takes htakes, ha.sizes, ha.cache,
      by simp [h.limits, hl]⟩⟩

theorem Given.Fills.takes (h : g.Fills d) (hg : g.IsInRange) (hts : g.Shows ts) :
    IsValue ts ∧ Takes jsonRecord.read ts d.complete := by
  refine ⟨ShowsFields.isValue (h.reads hg) hts, Record.takes_fields hasWholeFields_jsonRecord
    tracks_jsonRecord ⟨by simp [jsonRecord], by simp [jsonRecord], by simp [jsonRecord]⟩
    (h.reads hg) (fun last hlast hgiven => ?_) hts⟩
  cases hgiven with
  | cons hsizes hrest =>
    cases hrest with
    | cons hcache hrest =>
      cases hrest with
      | cons hlimits _ =>
        obtain rfl := h.eq_of_agrees hlast (by simpa [sizesField] using hsizes)
          (by simpa [Field.plain] using hcache) (by simpa [Field.plain] using hlimits)
        exact ⟨rfl, fun _ => rfl⟩

theorem Given.Shows.decode {text : String} (hts : g.Shows ts) (hg : g.IsInRange)
    (ht : Spells ts text.toList) : ∃ c, ofJson text = .ok c ∧ g.Makes c := by
  obtain ⟨d, hd⟩ := exists_fills hg
  obtain ⟨hv, htakes⟩ := hd.takes hg hts
  exact ⟨d.complete, htakes.decode hv ht, hd.makes⟩

end Reading

/-! ## Objects that are refused -/

/-- The names of the fields, in order. -/
def fieldNames : List String := ["default_sizes", "cache", "limits"]

/-- The value of a lower level is an object with another name than those of its fields in it, or with
a name that stands twice. -/
inductive SpoiledBelow : String → List Token → Prop where
  | cache {members : List Member} : (∀ m ∈ members, IsValue m.value) →
      Spoils ["max_capacity", "ttl_seconds"] members → SpoiledBelow "cache" (objectTokens members)
  | limits {members : List Member} : (∀ m ∈ members, IsValue m.value) →
      Spoils ["max_ceiling"] members → SpoiledBelow "limits" (objectTokens members)

/-- One of the levels is such an object. -/
inductive Spoiled : List Token → Prop where
  | top {members : List Member} : (∀ m ∈ members, IsValue m.value) → Spoils fieldNames members →
      Spoiled (objectTokens members)
  | member {members : List Member} {m : Member} {name : String} : (∀ m ∈ members, IsValue m.value) →
      m ∈ members → Piece.content? m.name = some name.toList → SpoiledBelow name m.value →
      Spoiled (objectTokens members)
  | item {rows : List (List Token)} {i : Nat} {name : String} {row : List Token} :
      (∀ row ∈ rows, IsValue row) → fieldNames[i]? = some name → rows[i]? = some row →
      SpoiledBelow name row → Spoiled (listTokens rows)

section Spoiled

variable {ts : List Token} {c : Config}

theorem SpoiledBelow.not_takes {name : String} {value : List Token} (h : SpoiledBelow name value)
    {f : Json.Field Draft} (hf : f ∈ jsonRecord.fields) (hname : f.name = name) {state next : Draft} :
    ¬Takes (f.read state) value (.ok next) := by
  have hfields := hf
  simp only [jsonRecord, List.mem_cons, List.not_mem_nil, or_false] at hfields
  intro htakes
  cases h with
  | cache hmembers hspoils =>
    rcases hfields with rfl | rfl | rfl
    · exact absurd hname (by decide)
    · have hw := Record.whole CacheConfig.hasWholeFields_jsonRecord
      obtain ⟨x, hx, -⟩ := (Field.plain_takes_iff hw (.object hmembers)).1 htakes
      exact Record.not_takes_of_spoils CacheConfig.hasWholeFields_jsonRecord
        CacheConfig.tracks_jsonRecord rfl hmembers hspoils hx
    · exact absurd hname (by decide)
  | limits hmembers hspoils =>
    rcases hfields with rfl | rfl | rfl
    · exact absurd hname (by decide)
    · exact absurd hname (by decide)
    · have hw := Record.whole Limits.hasWholeFields_jsonRecord
      obtain ⟨x, hx, -⟩ := (Field.plain_takes_iff hw (.object hmembers)).1 htakes
      exact Record.not_takes_of_spoils Limits.hasWholeFields_jsonRecord Limits.tracks_jsonRecord rfl
        hmembers hspoils hx

theorem Spoiled.isValue (h : Spoiled ts) : IsValue ts := by
  cases h with
  | top hmembers => exact .object hmembers
  | member hmembers => exact .object hmembers
  | item hrows => exact .list hrows

theorem Spoiled.not_takes (h : Spoiled ts) : ¬Takes jsonRecord.read ts c := by
  have hw := hasWholeFields_jsonRecord
  cases h with
  | top hmembers hspoils =>
    exact Record.not_takes_of_spoils hw tracks_jsonRecord rfl hmembers hspoils
  | member hmembers hm hname hbelow =>
    intro htakes
    obtain ⟨last, hsteps, -⟩ := (Record.takes_object_iff hw hmembers).1 htakes
    obtain ⟨found, _, _, hfound, hstep⟩ := hsteps.of_mem hm
    rw [hname] at hfound
    cases hfound
    cases hstep with
    | field hfind _ ht =>
      obtain ⟨hf, heq⟩ := Record.mem_fields hfind
      exact hbelow.not_takes hf (String.toList_injective heq) ht
    | other _ hloose => cases hloose
  | @item rows i name row hrows hname hrow hbelow =>
    intro htakes
    have hread := htakes (place _) [] (map_place _)
    obtain ⟨⟨last, hfills, -⟩, -⟩ := (Record.list_iff hw hrows (map_place _)).1 hread
    obtain ⟨f, _, _, hf, ht⟩ := hfills.of_getElem? hrow
    have hnames : jsonRecord.fields.map Field.name = fieldNames := rfl
    have heq : some f.name = some name := by
      rw [← hname, ← hnames, List.getElem?_map, hf]
      rfl
    exact hbelow.not_takes (List.mem_of_getElem? hf) (Option.some.inj heq) ht

theorem Spoiled.decode {text : String} (h : Spoiled ts) (ht : Spells ts text.toList) :
    ∃ e, ofJson text = .error e := by
  cases hread : ofJson text with
  | error e => exact ⟨e, rfl⟩
  | ok c =>
    have htakes := ((Record.whole hasWholeFields_jsonRecord).decode_iff h.isValue ht).1 hread
    exact absurd htakes h.not_takes

end Spoiled

/-- **Settings in JSON are the defaults with what is given laid over them.** Any text of a value that
gives some of the fields, on each level as an object in any order or as a list of the first of them, is
read as the settings that have what is given and the defaults elsewhere. A text of a value in which an
object on any level has another name, or a name twice, is not read. -/
theorem given_over_defaults :
    (∀ (g : Given) ts text, g.IsInRange → g.Shows ts → Spells ts text.toList →
      ∃ c, ofJson text = .ok c ∧ g.Makes c) ∧
    ∀ ts text, Spoiled ts → Spells ts text.toList → ∃ e, ofJson text = .error e :=
  ⟨fun _ _ _ hg hts ht => hts.decode hg ht, fun _ _ h ht => h.decode ht⟩

/-- The levels in another order than that of the fields, one of them as a list of its first field; and
a name that is no field of the store. -/
theorem given_over_defaults_mixed :
    (∃ c, ofJson "\x7b\"limits\":\x7b\"max_ceiling\":7\x7d,\"cache\":[12],\"default_sizes\":[23,53]\x7d" =
        .ok c ∧ Given.Makes ⟨some [23, 53], some ⟨some 12, none⟩, some ⟨some 7⟩⟩ c) ∧
      ∃ e, ofJson "\x7b\"cache\":\x7b\"ttl\":5\x7d\x7d" = .error e := by
  constructor
  · have hrange : Given.IsInRange ⟨some [23, 53], some ⟨some 12, none⟩, some ⟨some 7⟩⟩ := by
      refine ⟨?_, ?_, ?_⟩
      · rintro _ ⟨⟩; decide
      · rintro _ ⟨⟩; exact ⟨by rintro _ ⟨⟩; decide, by rintro _ ⟨⟩⟩
      · rintro _ ⟨⟩ _ ⟨⟩; decide
    refine given_over_defaults.1 _ (objectTokens
      [.plain "limits" (objectTokens [.plain "max_ceiling" (numeral 7)]),
        .plain "cache" (listTokens [numeral 12]),
        .plain "default_sizes" (Given.sizesTokens [23, 53])]) _ hrange ?_ ?_
    · have hlimits : ShowsFields (Limits.Draft.shown ⟨some 7⟩)
          (objectTokens [.plain "max_ceiling" (numeral 7)]) :=
        .object ⟨by simp [Limits.Draft.shown], by simp [Limits.Draft.shown],
          by simp [Limits.Draft.shown, valuesOf]⟩
      have hcache : ShowsFields (CacheConfig.Draft.shown ⟨some 12, none⟩) (listTokens [numeral 12]) :=
        .list (.next rfl (.stop (by simp)))
      exact .object ⟨by simp [Given.shown], by simp [Given.shown],
        by simp [Given.shown, valuesOf, hlimits, hcache]⟩
    · have hlimits : (Member.plain "limits" _).Writes ("limits", object [("max_ceiling", "7")]) :=
        .mk (by decide) (spells_object (.cons (.mk (by decide) (spells_numeral 7)) .nil))
      have hcache : (Member.plain "cache" _).Writes ("cache", array ["12"]) :=
        .mk (by decide) (spells_array (.cons (spells_numeral 12) .nil))
      have hsizes : (Member.plain "default_sizes" (Given.sizesTokens [23, 53])).Writes
          ("default_sizes", array ["23", "53"]) :=
        .mk (by decide) (spells_array (.cons (spells_numeral 23) (.cons (spells_numeral 53) .nil)))
      have htext := spells_object (.cons hlimits (.cons hcache (.cons hsizes .nil)))
      exact htext
  · have hvalues : ∀ m ∈ [Member.plain "ttl" (numeral 5)], IsValue m.value :=
      List.forall_mem_singleton.2 (isValue_numeral 5)
    refine given_over_defaults.2 (objectTokens [.plain "cache" (objectTokens
      [.plain "ttl" (numeral 5)])]) _ (.member ?_ List.mem_cons_self (Member.content?_plain _ _)
        (.cache hvalues (.inl ⟨_, List.mem_cons_self, by simp⟩))) ?_
    · exact List.forall_mem_singleton.2 (.object hvalues)
    · have hcache : (Member.plain "cache" _).Writes ("cache", object [("ttl", "5")]) :=
        .mk (by decide) (spells_object (.cons (.mk (by decide) (spells_numeral 5)) .nil))
      exact spells_object (.cons hcache .nil)

end Config
end PackPlan
