import LoadGenerator.Config
import LoadGenerator.Proofs.Text.Numerals
import LoadGenerator.Proofs.Text.Trimming

/-!
# The grammar of target addresses

A text without blanks around it is an address (`Denotes`) if it has no `://` and is a host, a colon
and a port, where the port is what follows the last colon. `Violates` lists what may be wrong
otherwise, one condition for each fault. Reading gives the target that the text denotes, and the
first fault of those that it has if it denotes none (`parse_by_grammar`).
-/

namespace LoadGenerator

namespace TargetFault

/-- The faults in the order in which they are looked for. -/
def order : List TargetFault :=
  [.scheme, .missingPort, .emptyHost, .invalidHost, .malformedBrackets, .missingBrackets,
    .invalidPort]

/-- The faults that are looked for before this one. -/
def before (fault : TargetFault) : List TargetFault :=
  order.takeWhile (· ≠ fault)

theorem eq_or_before (f g : TargetFault) : f = g ∨ f ∈ g.before ∨ g ∈ f.before := by
  cases f <;> cases g <;> decide

end TargetFault

namespace Target

/-- The text is cut in two at its last colon. -/
def Cuts (text host port : List Char) : Prop :=
  text = host ++ ':' :: port ∧ ':' ∉ port

/-- A host in brackets with something between them. -/
def IsBracketed (host : List Char) : Prop :=
  host.head? = some '[' ∧ host.getLast? = some ']' ∧ 3 ≤ (String.ofList host).utf8ByteSize

/-- What the host of an address may be. -/
structure IsHost (host : List Char) : Prop where
  ne_nil : host ≠ []
  noBlank : ∀ c ∈ host, Text.isBlank c = false
  noSlash : '/' ∉ host
  brackets : IsBracketed host ∨ host.head? ≠ some '[' ∧ ':' ∉ host

/-- The text is an address of the target. -/
structure Denotes (text : List Char) (target : Target) : Prop where
  noScheme : ¬ [':', '/', '/'] <:+: text
  host : IsHost target.host.toList
  port : ∃ port, Cuts text target.host.toList port ∧ Numeral.Denotes port target.port.toNat

/-- What is wrong with the two parts of a text. -/
def PartsViolate (host port : List Char) : TargetFault → Prop
  | .scheme => False
  | .missingPort => False
  | .emptyHost => host = []
  | .invalidHost => (∃ c ∈ host, Text.isBlank c = true) ∨ '/' ∈ host
  | .malformedBrackets => host.head? = some '[' ∧ ¬ IsBracketed host
  | .missingBrackets => host.head? ≠ some '[' ∧ ':' ∈ host
  | .invalidPort => ¬ ∃ n < UInt16.size, Numeral.Denotes port n

/-- The text has the fault, perhaps among others. -/
inductive Violates (text : List Char) : TargetFault → Prop
  | scheme (h : [':', '/', '/'] <:+: text) : Violates text .scheme
  | missingPort (h : ':' ∉ text) : Violates text .missingPort
  | parts {host port : List Char} {fault : TargetFault} (hcut : Cuts text host port)
      (h : PartsViolate host port fault) : Violates text fault

/-- The text has the fault and none that is looked for before. -/
structure FirstFault (text : List Char) (fault : TargetFault) : Prop where
  violates : Violates text fault
  first : ∀ earlier ∈ fault.before, ¬ Violates text earlier

variable {text host port : List Char} {fault : TargetFault} {target : Target}

/-! ### The parts of a text -/

theorem hasScheme_iff : hasScheme text = true ↔ [':', '/', '/'] <:+: text := by
  induction text with
  | nil => simp [hasScheme]
  | cons c cs ih =>
    rw [hasScheme, Bool.or_eq_true, List.isPrefixOf_iff_prefix, ih, List.infix_cons_iff]

theorem splitLastColon_eq_none : splitLastColon text = none ↔ ':' ∉ text := by
  induction text with
  | nil => simp [splitLastColon]
  | cons c cs ih =>
    rw [splitLastColon]
    cases hcs : splitLastColon cs with
    | none =>
      have hmem := ih.1 hcs
      by_cases hc : c = ':'
      · simp [hc]
      · simp [hc, hmem, Ne.symm hc]
    | some parts =>
      have hmem : ':' ∈ cs := by
        by_contra hmem
        rw [ih.2 hmem] at hcs
        cases hcs
      simp [hmem]

theorem cuts_of_splitLastColon (h : splitLastColon text = some (host, port)) :
    Cuts text host port := by
  induction text generalizing host with
  | nil => cases h
  | cons c cs ih =>
    rw [splitLastColon] at h
    cases hcs : splitLastColon cs with
    | none =>
      rw [hcs] at h
      by_cases hc : c = ':'
      · rw [if_pos hc] at h
        cases h
        exact ⟨by rw [hc]; rfl, splitLastColon_eq_none.1 hcs⟩
      · rw [if_neg hc] at h
        cases h
    | some parts =>
      rw [hcs] at h
      cases h
      obtain ⟨heq, hport⟩ := ih hcs
      exact ⟨by rw [heq, List.cons_append], hport⟩

/-- There is only one last colon. -/
theorem Cuts.unique {host' port' : List Char} (h : Cuts text host port)
    (h' : Cuts text host' port') : host = host' ∧ port = port' := by
  obtain ⟨rfl, hport⟩ := h
  obtain ⟨heq, hport'⟩ := h'
  -- the colon after the longer host would be in the port of the other
  rcases List.append_eq_append_iff.1 heq with ⟨more, rfl, hmore⟩ | ⟨more, rfl, hmore⟩
  · cases more with
    | nil => simpa using hmore
    | cons c more =>
      obtain ⟨rfl, rfl⟩ := List.cons.inj hmore
      exact absurd (by simp) hport
  · cases more with
    | nil => simpa using hmore.symm
    | cons c more =>
      obtain ⟨rfl, rfl⟩ := List.cons.inj hmore
      exact absurd (by simp) hport'

theorem splitLastColon_eq_some : splitLastColon text = some (host, port) ↔ Cuts text host port := by
  refine ⟨cuts_of_splitLastColon, fun h => ?_⟩
  cases hsplit : splitLastColon text with
  | none =>
    have hmem := splitLastColon_eq_none.1 hsplit
    rw [h.1] at hmem
    simp at hmem
  | some parts =>
    obtain ⟨rfl, rfl⟩ := (cuts_of_splitLastColon hsplit).unique h
    rfl

theorem Cuts.violates_iff (h : Cuts text host port) : Violates text fault ↔
    fault = .scheme ∧ [':', '/', '/'] <:+: text ∨ PartsViolate host port fault := by
  constructor
  · intro hviolates
    cases hviolates with
    | scheme hscheme => exact .inl ⟨rfl, hscheme⟩
    | missingPort hmissing =>
      rw [h.1] at hmissing
      simp at hmissing
    | parts hcut hparts =>
      obtain ⟨rfl, rfl⟩ := hcut.unique h
      exact .inr hparts
  · rintro (⟨rfl, hscheme⟩ | hparts)
    · exact .scheme hscheme
    · exact .parts h hparts

/-! ### Hosts and ports -/

theorem byteLength_eq (cs : List Char) : Text.byteLength cs = (String.ofList cs).utf8ByteSize := by
  induction cs with
  | nil => simp
  | cons c cs ih => rw [Text.byteLength_cons, ih, String.ofList_cons]; simp

theorem IsHost.not_violates (h : IsHost host) (hfault : fault ≠ .invalidPort) :
    ¬ PartsViolate host port fault := by
  intro hviolates
  cases fault with
  | scheme => exact hviolates
  | missingPort => exact hviolates
  | emptyHost => exact h.ne_nil hviolates
  | invalidHost =>
    rcases hviolates with ⟨c, hc, hblank⟩ | hslash
    · simp [h.noBlank c hc] at hblank
    · exact h.noSlash hslash
  | malformedBrackets =>
    rcases h.brackets with hbracketed | ⟨hhead, -⟩
    · exact hviolates.2 hbracketed
    · exact hhead hviolates.1
  | missingBrackets =>
    rcases h.brackets with hbracketed | ⟨-, hcolon⟩
    · exact hviolates.1 hbracketed.1
    · exact hcolon hviolates.2
  | invalidPort => exact hfault rfl

theorem isHost_of_not_violates (hempty : ¬ PartsViolate host port .emptyHost)
    (hinvalid : ¬ PartsViolate host port .invalidHost)
    (hbrackets : IsBracketed host ∨ host.head? ≠ some '[' ∧ ':' ∉ host) : IsHost host := by
  refine ⟨hempty, fun c hc => ?_, fun hslash => hinvalid (.inr hslash), hbrackets⟩
  rw [← Bool.not_eq_true]
  exact fun hblank => hinvalid (.inl ⟨c, hc, hblank⟩)

theorem not_isBracketed_iff (hhead : host.head? = some '[') :
    ¬ IsBracketed host ↔ host.getLast? ≠ some ']' ∨ Text.byteLength host < 3 := by
  rw [byteLength_eq, ← Nat.not_le, ← not_and_or, IsBracketed]
  simp [hhead]

/-- The check of a host finds the first of its faults. -/
theorem hostFault?_cases (host port : List Char) :
    hostFault? host = none ∧ IsHost host ∨
      ∃ fault ≠ .invalidPort, hostFault? host = some fault ∧ PartsViolate host port fault ∧
        ∀ earlier ∈ fault.before, ¬ PartsViolate host port earlier := by
  have hempty : host.isEmpty = true ↔ PartsViolate host port .emptyHost := by
    simp [PartsViolate]
  have hinvalid : (host.any Text.isBlank || host.contains '/') = true ↔
      PartsViolate host port .invalidHost := by
    simp [PartsViolate]
  have hcolon : host.contains ':' = true ↔ ':' ∈ host := List.contains_iff_mem
  unfold hostFault?
  by_cases h₁ : PartsViolate host port .emptyHost
  · rw [if_pos (hempty.2 h₁)]
    refine .inr ⟨_, by decide, rfl, h₁, ?_⟩
    show ∀ earlier ∈ [TargetFault.scheme, .missingPort], _
    simp only [List.forall_mem_cons]
    exact ⟨id, id, by simp⟩
  rw [if_neg (mt hempty.1 h₁)]
  by_cases h₂ : PartsViolate host port .invalidHost
  · rw [if_pos (hinvalid.2 h₂)]
    refine .inr ⟨_, by decide, rfl, h₂, ?_⟩
    show ∀ earlier ∈ [TargetFault.scheme, .missingPort, .emptyHost], _
    simp only [List.forall_mem_cons]
    exact ⟨id, id, h₁, by simp⟩
  rw [if_neg (mt hinvalid.1 h₂)]
  by_cases hhead : host.head? = some '['
  · rw [if_pos hhead]
    by_cases h₃ : IsBracketed host
    · rw [if_neg (mt (not_isBracketed_iff hhead).2 (not_not.2 h₃))]
      exact .inl ⟨rfl, isHost_of_not_violates h₁ h₂ (.inl h₃)⟩
    · rw [if_pos ((not_isBracketed_iff hhead).1 h₃)]
      refine .inr ⟨_, by decide, rfl, ⟨hhead, h₃⟩, ?_⟩
      show ∀ earlier ∈ [TargetFault.scheme, .missingPort, .emptyHost, .invalidHost], _
      simp only [List.forall_mem_cons]
      exact ⟨id, id, h₁, h₂, by simp⟩
  · rw [if_neg hhead]
    by_cases h₃ : ':' ∈ host
    · rw [if_pos (hcolon.2 h₃)]
      refine .inr ⟨_, by decide, rfl, ⟨hhead, h₃⟩, ?_⟩
      show ∀ earlier ∈ [TargetFault.scheme, .missingPort, .emptyHost, .invalidHost,
        .malformedBrackets], _
      simp only [List.forall_mem_cons]
      exact ⟨id, id, h₁, h₂, fun h => hhead h.1, by simp⟩
    · rw [if_neg (mt hcolon.1 h₃)]
      exact .inl ⟨rfl, isHost_of_not_violates h₁ h₂ (.inr ⟨hhead, h₃⟩)⟩

theorem invalidPort_of_error {e : NumeralFault} (h : Numeral.readUInt16 port = .error e) :
    PartsViolate host port .invalidPort := by
  rintro ⟨n, hn, hport⟩
  have hok : Numeral.readUInt16 port = .ok (UInt16.ofNat n) :=
    Numeral.readUInt16_eq_ok.2 (by rwa [UInt16.toNat_ofNat_of_lt' hn])
  rw [hok] at h
  cases h

/-! ### Reading -/

/-- A text that is an address has no fault. -/
theorem Denotes.not_violates (h : Denotes text target) : ¬ Violates text fault := by
  obtain ⟨port, hcut, hport⟩ := h.port
  rw [hcut.violates_iff]
  rintro (⟨-, hscheme⟩ | hparts)
  · exact h.noScheme hscheme
  · by_cases hfault : fault = .invalidPort
    · subst hfault
      exact hparts ⟨_, target.port.toNat_lt, hport⟩
    · exact h.host.not_violates hfault hparts

theorem Denotes.unique {target' : Target} (h : Denotes text target) (h' : Denotes text target') :
    target = target' := by
  obtain ⟨port, hcut, hport⟩ := h.port
  obtain ⟨port', hcut', hport'⟩ := h'.port
  obtain ⟨hhost, rfl⟩ := hcut.unique hcut'
  have hn := Numeral.readUInt16_eq_ok.2 hport
  rw [Numeral.readUInt16_eq_ok.2 hport'] at hn
  have hp : target.port = target'.port := (Except.ok.inj hn).symm
  calc target = ⟨target.host, target.port⟩ := rfl
    _ = ⟨target'.host, target'.port⟩ := by rw [String.toList_inj.1 hhost, hp]

theorem FirstFault.unique {fault' : TargetFault} (h : FirstFault text fault)
    (h' : FirstFault text fault') : fault = fault' := by
  rcases TargetFault.eq_or_before fault fault' with heq | hbefore | hbefore
  · exact heq
  · exact absurd h.violates (h'.first _ hbefore)
  · exact absurd h'.violates (h.first _ hbefore)

theorem FirstFault.of_parts (hcut : Cuts text host port)
    (hscheme : ¬ [':', '/', '/'] <:+: text) (hparts : PartsViolate host port fault)
    (hfirst : ∀ earlier ∈ fault.before, ¬ PartsViolate host port earlier) :
    FirstFault text fault := by
  refine ⟨.parts hcut hparts, fun earlier hearlier => ?_⟩
  rw [hcut.violates_iff]
  rintro (⟨-, h⟩ | h)
  · exact hscheme h
  · exact hfirst earlier hearlier h

theorem parseTrimmed_cases (text : List Char) :
    (∃ target, parseTrimmed text = .ok target ∧ Denotes text target) ∨
      ∃ fault, parseTrimmed text = .error fault ∧ FirstFault text fault := by
  unfold parseTrimmed
  by_cases hscheme : hasScheme text = true
  · rw [if_pos hscheme]
    refine .inr ⟨_, rfl, .scheme (hasScheme_iff.1 hscheme), ?_⟩
    show ∀ earlier ∈ ([] : List TargetFault), _
    simp
  rw [if_neg hscheme]
  have hnoScheme := mt hasScheme_iff.2 hscheme
  cases hsplit : splitLastColon text with
  | none =>
    refine .inr ⟨_, rfl, .missingPort (splitLastColon_eq_none.1 hsplit), ?_⟩
    show ∀ earlier ∈ [TargetFault.scheme], _
    simp only [List.forall_mem_cons]
    refine ⟨fun h => ?_, by simp⟩
    cases h with
    | scheme h => exact hnoScheme h
    | parts _ h => exact h
  | some parts =>
    obtain ⟨host, port⟩ := parts
    have hcut := splitLastColon_eq_some.1 hsplit
    rcases hostFault?_cases host port with ⟨hnone, hhost⟩ | ⟨fault, -, hsome, hparts, hfirst⟩
    · simp only [hnone]
      cases hread : Numeral.readUInt16 port with
      | ok p =>
        exact .inl ⟨_, rfl, hnoScheme, by simpa using hhost, port, by simpa using hcut,
          Numeral.readUInt16_eq_ok.1 hread⟩
      | error fault =>
        refine .inr ⟨_, rfl, .of_parts hcut hnoScheme (invalidPort_of_error hread) ?_⟩
        intro earlier hearlier
        refine hhost.not_violates ?_
        rintro rfl
        exact absurd hearlier (by decide)
    · simp only [hsome]
      exact .inr ⟨fault, rfl, .of_parts hcut hnoScheme hparts hfirst⟩

theorem parse_eq (s : String) : parse s =
    (parseTrimmed (Text.trim s.toList)).mapError (⟨String.ofList (Text.trim s.toList), ·⟩) := rfl

theorem parse_cases (s : String) :
    (∃ target, parse s = .ok target ∧ Denotes (Text.trim s.toList) target) ∨
      ∃ fault, parse s = .error ⟨String.ofList (Text.trim s.toList), fault⟩ ∧
        FirstFault (Text.trim s.toList) fault := by
  rw [parse_eq]
  rcases parseTrimmed_cases (Text.trim s.toList) with ⟨target, hok, h⟩ | ⟨fault, herror, h⟩
  · rw [hok]
    exact .inl ⟨target, rfl, h⟩
  · rw [herror]
    exact .inr ⟨fault, rfl, h⟩

theorem parse_eq_ok {s : String} : parse s = .ok target ↔ Denotes (Text.trim s.toList) target := by
  rcases parse_cases s with ⟨target', hok, h⟩ | ⟨fault, herror, h⟩
  · rw [hok]
    constructor
    · intro heq
      cases heq
      exact h
    · intro h'
      rw [h.unique h']
  · rw [herror]
    exact iff_of_false nofun fun h' => h'.not_violates h.violates

theorem parse_eq_error {s : String} {e : TargetError} : parse s = .error e ↔
    e.text = String.ofList (Text.trim s.toList) ∧ FirstFault (Text.trim s.toList) e.fault := by
  rcases parse_cases s with ⟨target', hok, h⟩ | ⟨fault, herror, h⟩
  · rw [hok]
    exact iff_of_false nofun fun h' => h.not_violates h'.2.violates
  · rw [herror]
    constructor
    · intro heq
      cases heq
      exact ⟨rfl, h⟩
    · rintro ⟨htext, h'⟩
      rw [← htext, h.unique h']

theorem parse_surrounded {s : String} {before after : List Char} (hbefore : Text.AllBlank before)
    (hafter : Text.AllBlank after) :
    parse (String.ofList (before ++ s.toList ++ after)) = parse s := by
  rw [parse_eq, parse_eq, String.toList_ofList, Text.trim_append hbefore hafter]

theorem parsedTarget_eq_error {c : Config} {e : Error} : c.parsedTarget = .error e ↔
    ∃ fault, FirstFault (Text.trim c.target.toList) fault ∧
      e = .config s!"target '{String.ofList (Text.trim c.target.toList)}' {fault.predicate}" := by
  unfold Config.parsedTarget
  rcases parse_cases c.target with ⟨target, hok, h⟩ | ⟨fault, herror, h⟩
  · rw [hok]
    refine iff_of_false nofun ?_
    rintro ⟨fault, h', -⟩
    exact h.not_violates h'.violates
  · rw [herror]
    constructor
    · intro heq
      cases heq
      exact ⟨fault, h, rfl⟩
    · rintro ⟨fault', h', rfl⟩
      rw [h.unique h']
      rfl

/-- A target is read from a text exactly if what is left of the text without the blanks around it is
its address; otherwise the configuration is at fault, for the first reason of those that there are.
Further blanks around the text change nothing. -/
theorem parse_by_grammar (s : String) : ∃ text, Text.Trims s.toList text ∧
    (∀ target, parse s = .ok target ↔ Denotes text target) ∧
    (∀ e, parse s = .error e ↔ e.text = String.ofList text ∧ FirstFault text e.fault) ∧
    (∀ (c : Config) (e : Error), ({ c with target := s } : Config).parsedTarget = .error e ↔
      ∃ fault, FirstFault text fault ∧
        e = .config s!"target '{String.ofList text}' {fault.predicate}") ∧
    ∀ before after, Text.AllBlank before → Text.AllBlank after →
      parse (String.ofList (before ++ s.toList ++ after)) = parse s :=
  ⟨Text.trim s.toList, Text.trims_trim _, fun _ => parse_eq_ok, fun _ => parse_eq_error,
    fun _ _ => parsedTarget_eq_error, fun _ _ => parse_surrounded⟩

/-- A no-break space, a tab and an ideographic space around an address are dropped. -/
theorem parse_by_grammar_surrounded :
    let s := "[::1]:+0080"
    let before := ['\u00a0', '\t']
    Text.AllBlank before ∧ Text.AllBlank ['\u3000'] ∧
      parse (String.ofList (before ++ s.toList ++ ['\u3000'])) = .ok ⟨"[::1]", 80⟩ := by
  intro s before
  obtain ⟨-, -, -, -, -, hsurrounded⟩ := parse_by_grammar s
  have hbefore : Text.AllBlank before := List.forall_mem_cons.2 ⟨by decide, by simp; decide⟩
  have hafter : Text.AllBlank ['\u3000'] := by simp [Text.AllBlank]; decide
  exact ⟨hbefore, hafter, (hsurrounded before _ hbefore hafter).trans (by decide +kernel)⟩

end Target

end LoadGenerator
