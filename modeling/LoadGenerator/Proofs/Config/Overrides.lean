import LoadGenerator.Proofs.Config.Files
import LoadGenerator.Proofs.Json.Records

/-!
# Files that name some of the fields

A file may name any fields in any order (`Assigns`), with whatever else between them that is a
JSON value under a key that nobody knows. `file_overrides` says that the defaults with exactly these
fields replaced are what it holds, that a list of the first fields does the same, and that an object
that names a field twice holds nothing.
-/

namespace LoadGenerator

/-- A field of a configuration and a value for it. -/
inductive Assignment where
  | target (s : String)
  | totalRequests (n : UInt64)
  | concurrency (n : UInt64)
  | queueCapacityMultiplier (n : UInt64)
  | failurePolicy (p : FailurePolicy)
  deriving DecidableEq, Repr

namespace Assignment

def name : Assignment → String
  | .target _ => "target"
  | .totalRequests _ => "total_requests"
  | .concurrency _ => "concurrency"
  | .queueCapacityMultiplier _ => "queue_capacity_multiplier"
  | .failurePolicy _ => "failure_policy"

/-- The configuration with the field replaced. -/
def apply (c : Config) : Assignment → Config
  | .target s => { c with target := s }
  | .totalRequests n => { c with totalRequests := n }
  | .concurrency n => { c with concurrency := n }
  | .queueCapacityMultiplier n => { c with queueCapacityMultiplier := n }
  | .failurePolicy p => { c with failurePolicy := p }

/-- The draft with the field set. -/
def put (d : Config.Draft) : Assignment → Config.Draft
  | .target s => { d with target := some s }
  | .totalRequests n => { d with totalRequests := some n }
  | .concurrency n => { d with concurrency := some n }
  | .queueCapacityMultiplier n => { d with queueCapacityMultiplier := some n }
  | .failurePolicy p => { d with failurePolicy := some p }

/-- A count has its digits only, without a point or an exponent. -/
def IsCount (value : List Char) (n : UInt64) : Prop :=
  Numeral.IsPlain value ∧ Numeral.valueFrom 0 value = n.toNat

/-- The text is a way to write the value: a string with any escapes, the digits of a count, or the
name of a policy, which may also be the only key of an object, with null as the value. -/
def WrittenAs : Assignment → List Char → Prop
  | .target s, value => ∃ body, Json.Denotes body s.toList ∧ value = Json.quoted body
  | .totalRequests n, value => IsCount value n
  | .concurrency n, value => IsCount value n
  | .queueCapacityMultiplier n, value => IsCount value n
  | .failurePolicy p, value => ∃ body, Json.Denotes body p.name.toList ∧
      (value = Json.quoted body ∨
        ∃ text, Json.Members true [(body, "null".toList)] text ∧ value = '\x7b' :: text)

/-- The place of the field. -/
def index : Assignment → Fin Config.schema.fields.length
  | .target _ => ⟨0, by decide⟩
  | .totalRequests _ => ⟨1, by decide⟩
  | .concurrency _ => ⟨2, by decide⟩
  | .queueCapacityMultiplier _ => ⟨3, by decide⟩
  | .failurePolicy _ => ⟨4, by decide⟩

def field (a : Assignment) : Json.Field Config.Draft :=
  Config.schema.fields.get a.index

end Assignment

namespace Config

/-- The names of the fields, in the order of their declaration. -/
def fieldNames : List String :=
  ["target", "total_requests", "concurrency", "queue_capacity_multiplier", "failure_policy"]

/-- The fields of a configuration with their values, in the order of their declaration. -/
def assignments (c : Config) : List Assignment :=
  [.target c.target, .totalRequests c.totalRequests, .concurrency c.concurrency,
    .queueCapacityMultiplier c.queueCapacityMultiplier, .failurePolicy c.failurePolicy]

/-- The members of an object make these assignments, in this order; what else they are has keys that
name no field, and any values. -/
inductive Assigns : List Json.KeyValue → List Assignment → Prop where
  | nil : Assigns [] []
  | field {a : Assignment} {key value : List Char} {members : List Json.KeyValue}
      {assignments : List Assignment} (hkey : Json.Denotes key a.name.toList)
      (hvalue : a.WrittenAs value) (h : Assigns members assignments) :
      Assigns ((key, value) :: members) (a :: assignments)
  | unknown {name : String} {key value : List Char} {members : List Json.KeyValue}
      {assignments : List Assignment} (hname : name ∉ fieldNames)
      (hkey : Json.Denotes key name.toList) (hvalue : Json.IsValue value)
      (h : Assigns members assignments) : Assigns ((key, value) :: members) assignments

end Config

open Json

variable {a : Assignment} {assignments : List Assignment} {d d' : Config.Draft} {value : List Char}
  {members : List KeyValue}

/-! ### Fields -/

namespace Assignment

theorem name_field (a : Assignment) : a.field.name = a.name := by
  cases a <;> rfl

theorem field_mem (a : Assignment) : a.field ∈ Config.schema.fields :=
  List.get_mem _ _

theorem find?_field (a : Assignment) :
    Config.schema.fields.find? (·.name == a.field.name) = some a.field :=
  Schema.find?_name_eq Config.nodup_fields a.field_mem

theorem override_put (c : Config) (d : Config.Draft) (a : Assignment) :
    c.override (a.put d) = a.apply (c.override d) := by
  cases a <;> rfl

theorem override_foldl_put (c : Config) (d : Config.Draft) (assignments : List Assignment) :
    c.override (assignments.foldl put d) = assignments.foldl apply (c.override d) := by
  induction assignments generalizing d with
  | nil => rfl
  | cons a rest ih => rw [List.foldl_cons, List.foldl_cons, ih, override_put]

theorem isSet_put {field : Json.Field Config.Draft} (hfield : field ∈ Config.schema.fields)
    (d : Config.Draft) (a : Assignment) :
    field.isSet (a.put d) = (field.isSet d || field.name == a.name) := by
  simp only [Config.schema, List.mem_cons, List.not_mem_nil, or_false] at hfield
  rcases hfield with rfl | rfl | rfl | rfl | rfl <;>
    cases a <;> simp [Field.ofOption, put, name]

theorem spells_of_getElem? {β : Type} {name : String} {get : Config.Draft → Option β}
    {set : Config.Draft → β → Config.Draft} {reader : Reader β} {b : β}
    (h : Spells reader value b)
    (hfield : Config.schema.fields[a.index.val]? = some (.ofOption name get set reader))
    (hput : a.put d = set d b) : Spells (a.field.read d) value (a.put d) := by
  have hget : Config.schema.fields[a.index.val]? = some a.field :=
    List.getElem?_eq_getElem a.index.isLt
  rw [hget] at hfield
  rw [Option.some.inj hfield, hput]
  exact h.ofOption d

/-- Whatever is written for a field is read by it. -/
theorem spells_field (h : a.WrittenAs value) (d : Config.Draft) :
    Spells (a.field.read d) value (a.put d) := by
  cases a with
  | target s =>
    obtain ⟨body, hbody, rfl⟩ := h
    exact spells_of_getElem? hbody.spells_string rfl rfl
  | totalRequests | concurrency | queueCapacityMultiplier =>
    exact spells_of_getElem? (spells_plain h.1 h.2) rfl rfl
  | failurePolicy p =>
    have hknown : FailurePolicy.known.lookup p.name = some p := by cases p <;> decide
    obtain ⟨body, hbody, rfl | ⟨text, htext, rfl⟩⟩ := h
    · exact spells_of_getElem? (hbody.spells_variant hknown) rfl rfl
    · exact spells_of_getElem? (hbody.spells_variant_object hknown htext) rfl rfl

theorem WrittenAs.isValue (h : a.WrittenAs value) : IsValue value := by
  cases a with
  | target s =>
    obtain ⟨body, hbody, rfl⟩ := h
    exact .string hbody.isBody
  | totalRequests | concurrency | queueCapacityMultiplier => exact .of_plain h.1
  | failurePolicy p =>
    obtain ⟨body, hbody, rfl | ⟨text, htext, rfl⟩⟩ := h
    · exact .string hbody.isBody
    · refine .object htext (fun m hm => ?_) fun m hm => ?_
      · rw [List.mem_singleton.1 hm]
        exact hbody.isBody
      · rw [List.mem_singleton.1 hm]
        exact .word List.mem_cons_self

end Assignment

namespace Config

theorem names_eq : schema.fields.map (·.name) = fieldNames :=
  rfl

theorem Assigns.acceptsAll (h : Assigns members assignments)
    (hnames : (assignments.map Assignment.name).Nodup)
    (hlacks : ∀ a ∈ assignments, a.field.isSet d = false) :
    schema.AcceptsAll d members (assignments.foldl Assignment.put d) := by
  induction h generalizing d with
  | nil => exact .nil
  | @field a key value members assignments hkey hvalue _ ih =>
    rw [List.map_cons, List.nodup_cons] at hnames
    have hset := hlacks a List.mem_cons_self
    rw [← a.name_field] at hkey
    refine .cons (.sets a.find?_field hkey hset (Assignment.spells_field hvalue d))
      (ih hnames.2 fun b hb => ?_)
    have hne : b.name ≠ a.name := fun heq => hnames.1 (heq ▸ List.mem_map_of_mem hb)
    rw [Assignment.isSet_put b.field_mem, hlacks b (List.mem_cons_of_mem _ hb), b.name_field]
    simpa using hne
  | unknown hname hkey hvalue _ ih =>
    refine .cons (.passes ?_ hkey hvalue) (ih hnames hlacks)
    rw [List.find?_eq_none]
    intro field hfield heq
    have hmem : field.name ∈ fieldNames := names_eq ▸ List.mem_map_of_mem hfield
    exact hname (eq_of_beq heq ▸ hmem)

theorem fillsIn {values : List (List Char)}
    (h : List.Forall₂ Assignment.WrittenAs assignments values) (more : List (Json.Field Draft))
    (d : Draft) :
    Schema.FillsIn (assignments.map Assignment.field ++ more) d values
      (assignments.foldl Assignment.put d) := by
  induction h generalizing d with
  | nil => exact .nil
  | cons hvalue _ ih => exact .cons (Assignment.spells_field hvalue d) hvalue.isValue (ih _)

theorem map_field (c : Config) : c.assignments.map Assignment.field = schema.fields :=
  rfl

theorem read_eq_ok {field : Json.Field Draft} {cs rest : List Char}
    (hfield : field ∈ schema.fields) (h : field.read d cs = .ok (d', rest)) :
    ∃ a : Assignment, a.name = field.name ∧ d' = a.put d := by
  simp only [schema, List.mem_cons, List.not_mem_nil, or_false] at hfield
  rcases hfield with rfl | rfl | rfl | rfl | rfl
  all_goals
    obtain ⟨value, cs, -, hset⟩ := bind_eq_ok.1 h
    cases hset
  · exact ⟨.target value, rfl, rfl⟩
  · exact ⟨.totalRequests value, rfl, rfl⟩
  · exact ⟨.concurrency value, rfl, rfl⟩
  · exact ⟨.queueCapacityMultiplier value, rfl, rfl⟩
  · exact ⟨.failurePolicy value, rfl, rfl⟩

theorem careful_schema : schema.Careful where
  names := nodup_fields
  inStep := by
    intro field hfield draft
    simp only [schema, List.mem_cons, List.not_mem_nil, or_false] at hfield
    rcases hfield with rfl | rfl | rfl | rfl | rfl
    · exact inStep_stringValue.ofOption draft
    · exact inStep_count.ofOption draft
    · exact inStep_count.ofOption draft
    · exact inStep_count.ofOption draft
    · exact (inStep_enumeration _).ofOption draft
  sets := by
    intro field hfield draft cs draft' rest hread
    obtain ⟨a, hname, rfl⟩ := read_eq_ok hfield hread
    refine ⟨?_, fun other hother hset => ?_⟩
    · rw [Assignment.isSet_put hfield, hname, beq_self_eq_true, Bool.or_true]
    · rw [Assignment.isSet_put hother, hset, Bool.true_or]

/-! ### Files -/

theorem load_of_read {text : List Char} {c : Config} {blanks : List Char}
    (h : schema.read text = .ok (c, blanks)) (hblanks : AllBlank blanks) :
    load (.ok (String.ofList text).toUTF8) = .ok c := by
  have hskip : skipBlanks blanks = [] := by
    rw [← List.append_nil blanks]
    exact List.dropWhile_append_of_pos hblanks
  have hwhole : whole schema.read text = .ok c := by
    simp only [whole, h, bind, Except.bind, hskip]
  rw [load_toUTF8, ofJson, decode, String.toList_ofList, hwhole]
  rfl

theorem load_of_read_error {text : List Char} {f : Failure} (h : schema.read text = .error f) :
    ∃ error, load (.ok (String.ofList text).toUTF8) = .error (.json error) := by
  have hwhole : whole schema.read text = .error f := by
    simp only [whole, h, bind, Except.bind]
  refine ⟨f.toError text, ?_⟩
  rw [load_toUTF8, ofJson, decode, String.toList_ofList, hwhole]
  rfl

/-- A file with an object holds the defaults with the fields replaced that the object names, however
it is written and whatever else is in it. A file with a list of values for the first fields holds
what it would with an object that names these. And a file with an object that names a field twice
holds nothing. -/
theorem file_overrides {before after : List Char} (hbefore : AllBlank before)
    (hafter : AllBlank after) :
    (∀ members assignments text, Members true members text → Assigns members assignments →
      (assignments.map Assignment.name).Nodup →
        load (.ok (String.ofList (before ++ '\x7b' :: (text ++ after))).toUTF8) =
          .ok (assignments.foldl Assignment.apply {})) ∧
      (∀ (c : Config) k values text, Elements true values text →
        List.Forall₂ Assignment.WrittenAs (c.assignments.take k) values →
          load (.ok (String.ofList (before ++ '[' :: (text ++ after))).toUTF8) =
            .ok ((c.assignments.take k).foldl Assignment.apply {})) ∧
      ∀ members text, Members true members text → (∀ member ∈ members, IsBody member.1) →
        (∀ member ∈ members, IsValue member.2) → ∀ name ∈ fieldNames, ∀ m m',
          [m, m'].Sublist members → Denotes m.1 name.toList → Denotes m'.1 name.toList →
            ∃ error, load (.ok (String.ofList (before ++ '\x7b' :: (text ++ after))).toUTF8) =
              .error (.json error) := by
  refine ⟨fun members assignments text htext hassigns hnames => ?_,
    fun c k values text htext hvalues => ?_, ?_⟩
  · have hall := hassigns.acceptsAll (d := schema.empty) hnames fun a _ => by cases a <;> rfl
    refine load_of_read ((Schema.read_members htext hall hbefore).trans ?_) hafter
    show Except.ok (override {} _, after) = _
    rw [Assignment.override_foldl_put]
    rfl
  · have hfills := fillsIn hvalues ((c.assignments.drop k).map Assignment.field) schema.empty
    rw [← List.map_append, List.take_append_drop, map_field] at hfills
    refine load_of_read ((Schema.read_elements hfills htext rfl hbefore).trans ?_) hafter
    rw [Assignment.override_foldl_put]
    rfl
  · intro members text htext hkeys hvalues name hname m m' htwice hm hm'
    rw [← names_eq] at hname
    obtain ⟨field, hfield, rfl⟩ := List.mem_map.1 hname
    obtain ⟨f, hread⟩ :=
      careful_schema.read_twice htext hkeys hvalues hfield htwice hm hm' hbefore
    exact load_of_read_error hread

/-- A key that nobody knows, twice, with a half of a surrogate pair inside the first value; a list
of two values; and a field that is named twice, first with a value that is none for it. -/
theorem file_overrides_nested :
    load (.ok "\x7b \"x\":[\x7b\"\\ud800\":0\x7d],\"concurrency\" : 3,\"x\":null\x7d".toUTF8) =
        .ok { concurrency := 3 } ∧
      load (.ok "[\"a\", 5]".toUTF8) = .ok { target := "a", totalRequests := 5 } ∧
      ∃ error,
        load (.ok "\x7b\"target\":0,\"target\":\"a\"\x7d".toUTF8) = .error (.json error) := by
  have hnone : AllBlank [] := by decide
  have hblank : AllBlank [' '] := by decide
  have hplain : ∀ name ∈ ["x", "target", "concurrency", "a"],
      Denotes name.toList name.toList := by
    intro name hname
    refine .of_plain ?_
    revert name
    decide
  have hx := hplain "x" (by decide)
  have htarget := hplain "target" (by decide)
  have ha := hplain "a" (by decide)
  have hconcurrency := hplain "concurrency" (by decide)
  have hzero : Numeral.IsPlain ['0'] := Numeral.isPlain_write (n := 0)
  have hthree : Numeral.IsPlain ['3'] := Numeral.isPlain_write (n := 3)
  have hfive : Numeral.IsPlain ['5'] := Numeral.isPlain_write (n := 5)
  have hhex : IsHex ['d', '8', '0', '0'] 0xd800 :=
    ⟨'d', '8', '0', '0', 13, 8, 0, 0, rfl, by decide, by decide, by decide, by decide, rfl⟩
  have hhalf : IsValue "\x7b\"\\ud800\":0\x7d".toList := by
    have hmembers : Members true [("\\ud800".toList, ['0'])] _ :=
      .first hnone ⟨_, rfl, [], [], hnone, hnone, rfl⟩ (.close hnone)
    refine .object hmembers ?_ ?_
    · simpa using IsBody.code hhex .nil
    · simpa using IsValue.of_plain hzero
  have hvalue : IsValue "[\x7b\"\\ud800\":0\x7d]".toList := by
    have helements : Elements true ["\x7b\"\\ud800\":0\x7d".toList] _ :=
      .first hnone rfl (.close hnone)
    exact .list helements (by simpa using hhalf)
  have hobject : Members true [("x".toList, "[\x7b\"\\ud800\":0\x7d]".toList),
      ("concurrency".toList, ['3']), ("x".toList, "null".toList)] _ :=
    .first hblank ⟨_, rfl, [], [], hnone, hnone, rfl⟩
      (.next hnone hnone ⟨_, rfl, [' '], [' '], hblank, hblank, rfl⟩
        (.next hnone hnone ⟨_, rfl, [], [], hnone, hnone, rfl⟩ (.close hnone)))
  have hassigns : Assigns [("x".toList, "[\x7b\"\\ud800\":0\x7d]".toList),
      ("concurrency".toList, ['3']), ("x".toList, "null".toList)] [.concurrency 3] :=
    .unknown (by decide) hx hvalue (.field hconcurrency ⟨hthree, by decide⟩
      (.unknown (by decide) hx (.word List.mem_cons_self) .nil))
  have hlist : Elements true [quoted "a".toList, ['5']] _ :=
    .first hnone rfl (.next hnone hblank rfl (.close hnone))
  have hvalues : List.Forall₂ Assignment.WrittenAs
      (({ target := "a", totalRequests := 5 } : Config).assignments.take 2)
      [quoted "a".toList, ['5']] :=
    .cons ⟨_, ha, rfl⟩ (.cons ⟨hfive, by decide⟩ .nil)
  have htwice : Members true [("target".toList, ['0']), ("target".toList, quoted "a".toList)] _ :=
    .first hnone ⟨_, rfl, [], [], hnone, hnone, rfl⟩
      (.next hnone hnone ⟨_, rfl, [], [], hnone, hnone, rfl⟩ (.close hnone))
  obtain ⟨hobjects, hlists, hdoubles⟩ := file_overrides hnone hnone
  have hfile : ∀ (text : String) {cs : List Char}, cs = text.toList →
      load (.ok (String.ofList cs).toUTF8) = load (.ok text.toUTF8) := by
    rintro text cs rfl
    rw [String.ofList_toList]
  refine ⟨?_, ?_, ?_⟩
  · refine (hfile _ ?_).symm.trans (hobjects _ _ _ hobject hassigns (by decide))
    decide
  · refine (hfile _ ?_).symm.trans (hlists _ _ _ _ hlist hvalues)
    decide
  · obtain ⟨error, herror⟩ := hdoubles _ _ htwice (by simpa using htarget.isBody)
      (by simpa using ⟨IsValue.of_plain hzero, IsValue.string ha.isBody⟩) "target" (by decide) _ _
      (List.Sublist.refl _) htarget htarget
    refine ⟨error, (hfile _ ?_).symm.trans herror⟩
    decide

end Config

end LoadGenerator
