import LoadGenerator.Proofs.Target.Display
import Mathlib.Data.List.TakeWhile

/-!
# Where a request goes

`Uri.split?` takes a URL apart by the generic syntax: the scheme, the authority up to the first
slash, question mark or number sign, and the rest; the authority is the host, with user information
in front of an at sign and a port behind a colon. A request goes to the host and the port of its
target exactly if none of these marks is in the host (`url_addresses_iff`), and not every host that
an address may have is so (`not_forall_url_addresses`).
-/

namespace LoadGenerator

/-- The parts of a URL. -/
structure Uri where
  scheme : List Char
  userInfo : Option (List Char)
  host : List Char
  port : Option (List Char)
  path : List Char
  query : Option (List Char)
  fragment : Option (List Char)
  deriving DecidableEq, Repr

namespace Uri

def endsAuthority (c : Char) : Bool := c == '/' || c == '?' || c == '#'

def endsPath (c : Char) : Bool := c == '?' || c == '#'

/-- What follows the last at sign, and what is before it if there is one. -/
def splitUserInfo : List Char → Option (List Char) × List Char
  | [] => (none, [])
  | c :: cs =>
    match splitUserInfo cs with
    | (some user, rest) => (some (c :: user), rest)
    | (none, rest) => if c = '@' then (some [], rest) else (none, c :: rest)

/-- The port of what follows a host: none, or what is behind a colon. -/
def portAfter? : List Char → Option (Option (List Char))
  | [] => some none
  | ':' :: port => some (some port)
  | _ => none

/-- Host and port; a host in brackets ends with the first closing one. -/
def splitHost? (cs : List Char) : Option (List Char × Option (List Char)) :=
  if cs.head? = some '[' then
    match cs.dropWhile (· ≠ ']') with
    | [] => none
    | close :: rest => (portAfter? rest).map fun port => (cs.takeWhile (· ≠ ']') ++ [close], port)
  else (portAfter? (cs.dropWhile (· ≠ ':'))).map fun port => (cs.takeWhile (· ≠ ':'), port)

/-- What begins with a mark, without it. -/
def after? (mark : Char) : List Char → Option (List Char)
  | [] => none
  | c :: cs => if c = mark then some cs else none

def authorityOf (rest : List Char) : List Char :=
  rest.takeWhile (!endsAuthority ·)

def pathOf (rest : List Char) : List Char :=
  (rest.dropWhile (!endsAuthority ·)).takeWhile (!endsPath ·)

def queryOf? (rest : List Char) : Option (List Char) :=
  (after? '?' (rest.dropWhile (!endsPath ·))).map (·.takeWhile (· ≠ '#'))

def fragmentOf? (rest : List Char) : Option (List Char) :=
  after? '#' (rest.dropWhile (· ≠ '#'))

/-- The parts of what follows the scheme. -/
def splitRest? (scheme rest : List Char) : Option Uri :=
  let (userInfo, address) := splitUserInfo (authorityOf rest)
  (splitHost? address).map fun (host, port) =>
    ⟨scheme, userInfo, host, port, pathOf rest, queryOf? rest, fragmentOf? rest⟩

/-- The parts of a URL that has an authority. -/
def split? (text : List Char) : Option Uri :=
  match text.dropWhile (· ≠ ':') with
  | ':' :: '/' :: '/' :: rest => splitRest? (text.takeWhile (· ≠ ':')) rest
  | _ => none

/-- The URL is that of the root path of a target, and of nothing else. -/
structure Addresses (uri : Uri) (t : Target) : Prop where
  scheme : uri.scheme = "http".toList
  userInfo : uri.userInfo = none
  host : uri.host = t.host.toList
  port : ∃ digits, uri.port = some digits ∧ Numeral.AllDigits digits ∧
    Numeral.Denotes digits t.port.toNat
  path : uri.path = ['/']
  query : uri.query = none
  fragment : uri.fragment = none

end Uri

namespace Target

/-- A host that a URL has no other reading for: without the marks that end or divide an authority,
and closed by its only closing bracket if it begins with an opening one. -/
structure StandsInUrl (host : List Char) : Prop where
  noQuestion : '?' ∉ host
  noNumber : '#' ∉ host
  noAt : '@' ∉ host
  closed : ∀ inner, host = '[' :: inner ++ [']'] → ']' ∉ inner

open Uri

variable {s : String} {t : Target} {host rest : List Char}

theorem toList_url (t : Target) :
    t.url.toList = "http://".toList ++ (t.display.toList ++ ['/']) := by
  simp [url, display, toString]

theorem split?_http (rest : List Char) :
    split? ("http://".toList ++ rest) = splitRest? "http".toList rest := rfl

/-! ### The authority -/

theorem splitUserInfo_of_not_mem {cs : List Char} (h : '@' ∉ cs) :
    splitUserInfo cs = (none, cs) := by
  induction cs with
  | nil => rfl
  | cons c cs ih =>
    obtain ⟨hc, hcs⟩ := not_or.1 (mt List.mem_cons.2 h)
    rw [splitUserInfo, ih hcs]
    simp [Ne.symm hc]

theorem splitUserInfo_of_mem {cs : List Char} (h : '@' ∈ cs) : (splitUserInfo cs).1 ≠ none := by
  induction cs with
  | nil => simp at h
  | cons c cs ih =>
    rw [splitUserInfo]
    rcases List.mem_cons.1 h with rfl | hcs
    · split <;> simp
    · have hsome := ih hcs
      split
      · simp
      · next heq =>
        rw [heq] at hsome
        exact absurd rfl hsome

theorem mem_display {c : Char} (hdigit : c.isDigit = false) (hcolon : c ≠ ':') :
    c ∈ t.display.toList ↔ c ∈ t.host.toList := by
  rw [toList_display, List.mem_append, List.mem_cons]
  have hport : c ∉ Numeral.write t.port.toNat :=
    Numeral.not_mem_of_allDigits Numeral.allDigits_write hdigit
  simp [hcolon, hport]

/-- The host in brackets ends where the URL says, if it has no other closing bracket. -/
theorem splitHost?_display_bracketed {inner : List Char} (h : t.host.toList = '[' :: inner ++ [']'])
    (hinner : ']' ∉ inner) :
    splitHost? t.display.toList = some (t.host.toList, some (Numeral.write t.port.toNat)) := by
  have hall : ∀ c ∈ '[' :: inner, decide (c ≠ ']') = true := by
    intro c hc
    rcases List.mem_cons.1 hc with rfl | hc
    · decide
    · exact decide_eq_true fun heq => hinner (heq ▸ hc)
  have hdisplay : t.display.toList =
      ('[' :: inner) ++ (']' :: ':' :: Numeral.write t.port.toNat) := by
    rw [toList_display, h]
    simp
  unfold splitHost?
  rw [if_pos (by rw [hdisplay]; rfl), hdisplay, List.dropWhile_append_of_pos hall,
    List.takeWhile_append_of_pos hall, h]
  simp [portAfter?]

theorem splitHost?_display_bare (hhead : t.host.toList.head? ≠ some '[') (hne : t.host.toList ≠ [])
    (hcolon : ':' ∉ t.host.toList) :
    splitHost? t.display.toList = some (t.host.toList, some (Numeral.write t.port.toNat)) := by
  have hall : ∀ c ∈ t.host.toList, decide (c ≠ ':') = true := fun c hc =>
    decide_eq_true fun heq => hcolon (heq ▸ hc)
  have hhead' : t.display.toList.head? ≠ some '[' := by
    rwa [toList_display, List.head?_append, List.head?_eq_some_head hne, Option.some_or,
      ← List.head?_eq_some_head hne]
  unfold splitHost?
  rw [if_neg hhead', toList_display, List.dropWhile_append_of_pos hall,
    List.takeWhile_append_of_pos hall]
  simp [portAfter?]

/-- With a closing bracket inside, the URL ends its host before the host ends. -/
theorem splitHost?_display_ne {inner : List Char} (h : t.host.toList = '[' :: inner ++ [']'])
    (hinner : ']' ∈ inner) {port : Option (List Char)} :
    splitHost? t.display.toList ≠ some (t.host.toList, port) := by
  intro hsplit
  unfold splitHost? at hsplit
  rw [if_pos (by rw [toList_display, h]; rfl)] at hsplit
  cases hdrop : t.display.toList.dropWhile (· ≠ ']') with
  | nil =>
    rw [hdrop] at hsplit
    cases hsplit
  | cons close rest =>
    rw [hdrop] at hsplit
    obtain ⟨port', -, heq⟩ := Option.map_eq_some_iff.1 hsplit
    have hhost := congrArg List.dropLast ((Prod.mk.inj heq).1.trans h)
    rw [List.dropLast_concat, List.dropLast_concat] at hhost
    have hmem : ']' ∈ t.display.toList.takeWhile (· ≠ ']') := by
      rw [hhost]
      exact List.mem_cons_of_mem _ hinner
    have hall := List.all_eq_true.1 List.all_takeWhile ']' hmem
    simp at hall

/-! ### The whole URL -/

theorem splitRest?_eq_some {scheme rest : List Char} {uri : Uri} :
    splitRest? scheme rest = some uri ↔ ∃ host port,
      splitHost? (splitUserInfo (authorityOf rest)).2 = some (host, port) ∧
        ⟨scheme, (splitUserInfo (authorityOf rest)).1, host, port, pathOf rest,
          queryOf? rest, fragmentOf? rest⟩ = uri := by
  simp [splitRest?, Option.map_eq_some_iff]

/-- Where a mark that ends the path comes before any slash, the path is empty. -/
theorem path_eq_nil {cs more : List Char} (hslash : '/' ∉ cs)
    (hmark : ∃ c ∈ cs, endsPath c = true) : pathOf (cs ++ more) = [] := by
  unfold pathOf
  induction cs with
  | nil => simp at hmark
  | cons c cs ih =>
    obtain ⟨hc, hcs⟩ := not_or.1 (mt List.mem_cons.2 hslash)
    by_cases hend : endsAuthority c = true
    · have hpath : endsPath c = true := by
        simpa [endsAuthority, endsPath, Ne.symm hc] using hend
      simp [hend, hpath]
    · have hpath : ¬ endsPath c = true := by
        simp only [endsAuthority, endsPath, Bool.or_eq_true, not_or] at hend ⊢
        exact ⟨hend.1.2, hend.2⟩
      obtain ⟨d, hd, hmark⟩ := hmark
      have hd : d ∈ cs := (List.mem_cons.1 hd).resolve_left fun heq => hpath (heq ▸ hmark)
      simpa [hend] using ih hcs ⟨d, hd, hmark⟩

theorem endsAuthority_eq_false {c : Char} :
    endsAuthority c = false ↔ c ≠ '/' ∧ c ≠ '?' ∧ c ≠ '#' := by
  simp [endsAuthority, and_assoc]

theorem endsAuthority_display (h : IsHost t.host.toList)
    (hmark : ∀ c ∈ t.host.toList, endsPath c = false) :
    ∀ c ∈ t.display.toList, endsAuthority c = false := by
  intro c hc
  rw [endsAuthority_eq_false]
  refine ⟨?_, ?_, ?_⟩
  · rintro rfl
    exact h.noSlash ((mem_display (by decide) (by decide)).1 hc)
  · rintro rfl
    exact absurd (hmark '?' ((mem_display (by decide) (by decide)).1 hc)) (by decide)
  · rintro rfl
    exact absurd (hmark '#' ((mem_display (by decide) (by decide)).1 hc)) (by decide)

/-- An address in which nothing ends an authority is the authority of the URL, and the root is all
that follows. -/
theorem authorityOf_display (h : ∀ c ∈ t.display.toList, endsAuthority c = false) :
    authorityOf (t.display.toList ++ ['/']) = t.display.toList ∧
      pathOf (t.display.toList ++ ['/']) = ['/'] ∧ queryOf? (t.display.toList ++ ['/']) = none ∧
        fragmentOf? (t.display.toList ++ ['/']) = none := by
  have hall : ∀ c ∈ t.display.toList, (!endsAuthority c) = true := fun c hc => by
    rw [h c hc]
    rfl
  have hpath : ∀ c ∈ t.display.toList ++ ['/'], (!endsPath c) = true := by
    intro c hc
    rcases List.mem_append.1 hc with hc | hc
    · obtain ⟨-, hquestion, hnumber⟩ := endsAuthority_eq_false.1 (h c hc)
      simp [endsPath, hquestion, hnumber]
    · rw [List.mem_singleton.1 hc]
      decide
  have hnumber : ∀ c ∈ t.display.toList ++ ['/'], decide (c ≠ '#') = true := by
    intro c hc
    have := hpath c hc
    simp [endsPath] at this
    simp [this.2]
  refine ⟨?_, ?_, ?_, ?_⟩
  · unfold authorityOf
    rw [List.takeWhile_append_of_pos hall]
    simp [endsAuthority]
  · unfold pathOf
    rw [List.dropWhile_append_of_pos hall]
    rfl
  · unfold queryOf?
    rw [List.dropWhile_eq_nil_iff.2 hpath]
    rfl
  · unfold fragmentOf?
    rw [List.dropWhile_eq_nil_iff.2 hnumber]
    rfl

theorem IsBracketed.exists_inner (h : IsBracketed host) :
    ∃ inner, host = '[' :: inner ++ [']'] := by
  obtain ⟨hhead, hlast, -⟩ := h
  obtain ⟨tail, rfl⟩ := List.head?_eq_some_iff.1 hhead
  obtain ⟨before, heq⟩ := List.getLast?_eq_some_iff.1 hlast
  cases before with
  | nil => simp at heq
  | cons c inner =>
    obtain ⟨-, rfl⟩ := List.cons.inj heq
    exact ⟨inner, rfl⟩

theorem splitHost?_display (h : IsHost t.host.toList)
    (hclosed : ∀ inner, t.host.toList = '[' :: inner ++ [']'] → ']' ∉ inner) :
    splitHost? t.display.toList = some (t.host.toList, some (Numeral.write t.port.toNat)) := by
  rcases h.brackets with hbracketed | ⟨hhead, hcolon⟩
  · obtain ⟨inner, hinner⟩ := hbracketed.exists_inner
    exact splitHost?_display_bracketed hinner (hclosed inner hinner)
  · exact splitHost?_display_bare hhead h.ne_nil hcolon

theorem splitUserInfo_display (h : '@' ∉ t.host.toList) :
    splitUserInfo t.display.toList = (none, t.display.toList) :=
  splitUserInfo_of_not_mem fun hmem => h ((mem_display (by decide) (by decide)).1 hmem)

theorem not_mem_of_userInfo (h : (splitUserInfo t.display.toList).1 = none) :
    '@' ∉ t.host.toList := fun hmem =>
  splitUserInfo_of_mem ((mem_display (by decide) (by decide)).2 hmem) h

theorem forall_endsPath : (∀ c ∈ host, endsPath c = false) ↔ '?' ∉ host ∧ '#' ∉ host := by
  constructor
  · intro h
    exact ⟨fun hmem => absurd (h _ hmem) (by decide), fun hmem => absurd (h _ hmem) (by decide)⟩
  · rintro ⟨hquestion, hnumber⟩ c hc
    simp only [endsPath, Bool.or_eq_false_iff, beq_eq_false_iff_ne]
    exact ⟨fun heq => hquestion (heq ▸ hc), fun heq => hnumber (heq ▸ hc)⟩

/-- The path of the URL is the root only if the host does not end it before. -/
theorem forall_endsPath_of_path (h : IsHost t.host.toList)
    (hpath : pathOf (t.display.toList ++ ['/']) = ['/']) :
    ∀ c ∈ t.host.toList, endsPath c = false := by
  intro c hc
  by_contra hend
  rw [toList_display, List.append_assoc, path_eq_nil h.noSlash ⟨c, hc, by simpa using hend⟩]
    at hpath
  cases hpath

/-- The URL of a target that was read is that of its root path and of nothing else exactly if no
mark in the host has a meaning of its own in a URL. -/
theorem url_addresses_iff (h : parse s = .ok t) :
    (∃ uri, split? t.url.toList = some uri ∧ uri.Addresses t) ↔ StandsInUrl t.host.toList := by
  have hhost := isHost_of_parse h
  rw [toList_url, split?_http]
  constructor
  · rintro ⟨uri, hsplit, hto⟩
    obtain ⟨host, port, hparts, rfl⟩ := splitRest?_eq_some.1 hsplit
    have hmark := forall_endsPath_of_path hhost hto.path
    obtain ⟨hauthority, -⟩ := authorityOf_display (endsAuthority_display hhost hmark)
    have huser := hto.userInfo
    rw [hauthority] at hparts huser
    have hat := not_mem_of_userInfo huser
    rw [splitUserInfo_display hat] at hparts
    obtain ⟨hquestion, hnumber⟩ := forall_endsPath.1 hmark
    refine ⟨hquestion, hnumber, hat, fun inner hinner hmem => ?_⟩
    have hhost' : host = t.host.toList := hto.host
    exact splitHost?_display_ne hinner hmem (hhost' ▸ hparts)
  · rintro ⟨hquestion, hnumber, hat, hclosed⟩
    have hmark := forall_endsPath.2 ⟨hquestion, hnumber⟩
    obtain ⟨hauthority, hpath, hquery, hfragment⟩ :=
      authorityOf_display (endsAuthority_display hhost hmark)
    refine ⟨_, splitRest?_eq_some.2 ⟨t.host.toList, some (Numeral.write t.port.toNat), ?_, rfl⟩, ?_⟩
    · rw [hauthority, splitUserInfo_display hat]
      exact splitHost?_display hhost hclosed
    · refine ⟨rfl, ?_, rfl, ⟨_, rfl, Numeral.allDigits_write, Numeral.denotes_write⟩, hpath, hquery,
        hfragment⟩
      rw [hauthority, splitUserInfo_display hat]

/-- The colons of an address in brackets are no marks; a name in front of an at sign is not the
host. -/
theorem url_addresses_iff_marks :
    parse "[::1]:8080" = .ok ⟨"[::1]", 8080⟩ ∧ StandsInUrl "[::1]".toList ∧
      parse "user@localhost:80" = .ok ⟨"user@localhost", 80⟩ ∧
        ¬ ∃ uri, split? "http://user@localhost:80/".toList = some uri ∧
          uri.Addresses ⟨"user@localhost", 80⟩ := by
  have hbracketed : parse "[::1]:8080" = .ok ⟨"[::1]", 8080⟩ := by decide +kernel
  have huser : parse "user@localhost:80" = .ok ⟨"user@localhost", 80⟩ := by decide +kernel
  have hsplit : split? (Target.mk "[::1]" 8080).url.toList =
      some ⟨"http".toList, none, "[::1]".toList, some "8080".toList, ['/'], none, none⟩ := by
    decide +kernel
  have hread : Numeral.read 8080 "8080".toList = .ok 8080 := by decide +kernel
  have hport : Numeral.Denotes "8080".toList 8080 := (Numeral.read_eq_ok.1 hread).1
  refine ⟨hbracketed, (url_addresses_iff hbracketed).1 ⟨_, hsplit, ?_⟩, huser, fun hto => ?_⟩
  · exact ⟨rfl, rfl, rfl, ⟨_, rfl, by simp [Numeral.AllDigits], hport⟩, rfl, rfl, rfl⟩
  · exact ((url_addresses_iff huser).1 hto).noAt (by decide)

/-- Not every URL of a target that was read is the URL of its host and port: with a question mark in
the host, the authority ends before the port, and the rest is a query. -/
theorem not_forall_url_addresses : ¬ ∀ s t, parse s = .ok t →
    ∃ uri, split? t.url.toList = some uri ∧ uri.Addresses t := by
  intro h
  obtain ⟨uri, hsplit, hto⟩ := h "localhost?x:9000" ⟨"localhost?x", 9000⟩ (by decide +kernel)
  have hquery : split? (Target.mk "localhost?x" 9000).url.toList =
      some ⟨"http".toList, none, "localhost".toList, none, [], some "x:9000/".toList, none⟩ := by
    decide +kernel
  rw [hquery] at hsplit
  cases hsplit
  cases hto.query

end Target

end LoadGenerator
