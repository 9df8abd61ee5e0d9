import SqlScript.Proofs.Text.Run
import SqlScript.Proofs.Text.Trim
import SqlScript.Server.Address

/-!
# Addresses of servers

The host of an address is written without commas and backslashes, and the other names of the local
machine are resolved.  A name without a port means the same server as it does with its default port
behind it.  The exception are blanks between the protocol and the host: they are part of the host
unless a port follows (`Address.addresses_of_names`).
-/

namespace SqlScript
namespace Server
namespace Address

open Text (isBlank isBlankText lowercase trim trimLeft trimRight)

/-- What may stand in front of a host to name the protocol, in any case. -/
def IsProtocol (protocol : List Char) : Prop :=
  lowercase protocol = ['t', 'c', 'p', ':']

/-- A blank stands between the protocol and the host. -/
def Gapped (target : List Char) : Prop :=
  ∃ lead protocol blank rest, lead ++ (protocol ++ blank :: rest) = target ∧
    isBlankText lead = true ∧ IsProtocol protocol ∧ isBlank blank = true ∧
      isBlankText rest = false

/-- The host of an address, apart from blanks in front of it. -/
structure IsHost (host : String) : Prop where
  ne_empty : host ≠ ""
  no_comma : ',' ∉ host.toList
  no_backslash : '\\' ∉ host.toList
  last : ∀ c ∈ host.toList.getLast?, isBlank c = false
  ne_dot : host ≠ "."
  ne_local : host ≠ "(local)"

/-- A blank has no case. -/
theorem toLower_of_isBlank {c : Char} (blank : isBlank c = true) : c.toLower = c := by
  unfold Char.toLower
  split
  · rename_i upper
    have letter : c.isAlpha = true := Bool.or_eq_true_iff.mpr (.inl (decide_eq_true upper))
    have word : Text.isWordCharacter c = true := by
      simp [Text.isWordCharacter, Char.isAlphanum, letter]
    rw [Text.not_isBlank_of_isWordCharacter word] at blank
    contradiction
  · rfl

namespace IsProtocol

variable {protocol : List Char}

theorem length_eq (is_protocol : IsProtocol protocol) : protocol.length = 4 := by
  rw [← List.length_map Char.toLower]
  exact congrArg List.length is_protocol

theorem ne_comma (is_protocol : IsProtocol protocol) : ∀ c ∈ protocol, c ≠ ',' := by
  rintro _ member rfl
  have lower : ','.toLower ∈ lowercase protocol := List.mem_map_of_mem member
  rw [is_protocol] at lower
  exact absurd lower (by decide)

theorem not_isBlank (is_protocol : IsProtocol protocol) : ∀ c ∈ protocol, isBlank c = false := by
  refine fun c member => Bool.eq_false_iff.mpr fun blank => ?_
  have lower : c.toLower ∈ lowercase protocol := List.mem_map_of_mem member
  rw [is_protocol, toLower_of_isBlank blank] at lower
  have none_blank : ['t', 'c', 'p', ':'].any isBlank = false := by decide
  exact List.any_eq_false.mp none_blank c lower blank

end IsProtocol

section WithoutProtocol

variable {target protocol behind : List Char}

theorem withoutProtocol_of_protocol (is_protocol : IsProtocol protocol)
    (trim_eq : trim target = protocol ++ behind) : withoutProtocol target = behind := by
  have taken : (protocol ++ behind).take 4 = protocol := List.take_left' is_protocol.length_eq
  have dropped : (protocol ++ behind).drop 4 = behind := List.drop_left' is_protocol.length_eq
  have same : Text.equalsIgnoringCase protocol ['t', 'c', 'p', ':'] = true :=
    beq_iff_eq.mpr is_protocol
  simp only [withoutProtocol, trim_eq, taken, dropped, same, if_true]

theorem withoutProtocol_of_plain
    (plain : ∀ protocol behind, IsProtocol protocol → trim target ≠ protocol ++ behind) :
    withoutProtocol target = trim target := by
  refine if_neg fun same => ?_
  exact plain _ _ (beq_iff_eq.mp same) (List.take_append_drop 4 (trim target)).symm

/-- A name begins with the protocol or does without it. -/
theorem withoutProtocol_cases (target : List Char) :
    (∃ protocol, IsProtocol protocol ∧ trim target = protocol ++ withoutProtocol target) ∨
      (∀ protocol behind, IsProtocol protocol → trim target ≠ protocol ++ behind) ∧
        withoutProtocol target = trim target := by
  by_cases named : ∃ protocol behind, IsProtocol protocol ∧ trim target = protocol ++ behind
  · obtain ⟨protocol, behind, is_protocol, trim_eq⟩ := named
    refine .inl ⟨protocol, is_protocol, ?_⟩
    rw [withoutProtocol_of_protocol is_protocol trim_eq, trim_eq]
  · have plain : ∀ protocol behind, IsProtocol protocol → trim target ≠ protocol ++ behind :=
      fun protocol behind is_protocol trim_eq => named ⟨protocol, behind, is_protocol, trim_eq⟩
    exact .inr ⟨plain, withoutProtocol_of_plain plain⟩

theorem last_withoutProtocol (target : List Char) :
    ∀ c ∈ (withoutProtocol target).getLast?, isBlank c = false := by
  intro c last
  rcases withoutProtocol_cases target with ⟨protocol, -, trim_eq⟩ | ⟨-, name_eq⟩
  · refine Text.last_trim target c ?_
    rw [trim_eq]
    exact List.mem_getLast?_append_of_mem_getLast? last
  · rw [name_eq] at last
    exact Text.last_trim target c last

theorem comma_mem_withoutProtocol (target : List Char) :
    ',' ∈ withoutProtocol target ↔ ',' ∈ target := by
  refine Iff.trans ?_ (Text.mem_trim_iff (by decide))
  rcases withoutProtocol_cases target with ⟨protocol, is_protocol, trim_eq⟩ | ⟨-, name_eq⟩
  · have outside : ',' ∉ protocol := fun member => is_protocol.ne_comma _ member rfl
    simp [trim_eq, outside]
  · rw [name_eq]

/-- What stands in front of a comma keeps its protocol, its host, and the blanks behind it. -/
theorem withoutProtocol_append (target : List Char)
    (last : ∀ c ∈ (',' :: behind).getLast?, isBlank c = false) :
    ∃ blanks, isBlankText blanks = true ∧
      withoutProtocol (target ++ ',' :: behind) =
        (withoutProtocol target ++ blanks) ++ ',' :: behind := by
  obtain ⟨blanks, trimLeft_eq, blank⟩ := Text.trimLeft_eq_append target
  have trim_eq : trim (target ++ ',' :: behind) = trim target ++ (blanks ++ ',' :: behind) := by
    have ends : ∀ c ∈ (target ++ ',' :: behind).getLast?, isBlank c = false := by
      simpa [List.getLast?_append] using last
    rw [trim, Text.trimRight_eq_self ends, ← List.append_assoc, ← trimLeft_eq, trimLeft,
      List.dropWhile_append]
    split
    · rename_i nothing
      rw [trimLeft, List.isEmpty_iff.mp nothing]
      exact Text.trimLeft_eq_self (by simp; decide)
    · rfl
  refine ⟨blanks, blank, ?_⟩
  rw [List.append_assoc]
  rcases withoutProtocol_cases target with ⟨protocol, is_protocol, core_eq⟩ | ⟨plain, name_eq⟩
  · rw [core_eq, List.append_assoc] at trim_eq
    exact withoutProtocol_of_protocol is_protocol trim_eq
  · rw [name_eq, ← trim_eq]
    refine withoutProtocol_of_plain fun protocol rest is_protocol same => ?_
    rw [trim_eq] at same
    rcases List.append_eq_append_iff.mp same with ⟨more, protocol_eq, rest_eq⟩ | ⟨more, core_eq, -⟩
    · cases more with
      | nil => exact plain protocol [] is_protocol (by simpa using protocol_eq.symm)
      | cons c more =>
          have member : c ∈ protocol := by simp [protocol_eq]
          cases blanks with
          | nil => exact is_protocol.ne_comma c member (List.cons.inj rest_eq).1.symm
          | cons first blanks =>
              obtain rfl : first = c := (List.cons.inj rest_eq).1
              have is_blank := List.all_eq_true.mp blank first List.mem_cons_self
              rw [is_protocol.not_isBlank first member] at is_blank
              contradiction
    · exact plain protocol more is_protocol core_eq

end WithoutProtocol

/-- Only a gap behind the protocol leaves a blank in front of the host. -/
theorem gapped_iff (target : List Char) :
    Gapped target ↔ ∃ c ∈ (withoutProtocol target).head?, isBlank c = true := by
  constructor
  · rintro ⟨lead, protocol, blank, rest, rfl, blank_lead, is_protocol, is_blank, filled⟩
    obtain ⟨tail, rest_eq, blank_tail⟩ := Text.trimRight_append_dropped rest
    have core_ne : trimRight rest ≠ [] := by
      intro nothing
      rw [rest_eq, nothing, List.nil_append, blank_tail] at filled
      contradiction
    have trimmed : Text.Trimmed (protocol ++ blank :: trimRight rest) := by
      refine ⟨?_, ?_⟩
      · obtain ⟨c, behind, rfl⟩ := List.exists_cons_of_length_eq_add_one is_protocol.length_eq
        exact ⟨c, rfl, is_protocol.not_isBlank c List.mem_cons_self⟩
      · rw [List.getLast?_append_cons, List.getLast?_cons_of_ne_nil core_ne]
        exact Text.last_trimRight rest
    have trim_eq := trimmed.trim_surrounded blank_lead blank_tail
    rw [List.append_assoc, List.cons_append, ← rest_eq] at trim_eq
    exact ⟨blank, by rw [withoutProtocol_of_protocol is_protocol trim_eq]; rfl, is_blank⟩
  · rintro ⟨blank, head, is_blank⟩
    obtain ⟨rest, name_eq⟩ := List.head?_eq_some_iff.mp head
    rcases withoutProtocol_cases target with ⟨protocol, is_protocol, trim_eq⟩ | ⟨-, plain_eq⟩
    · obtain ⟨lead, tail, target_eq, blank_lead, -⟩ := Text.append_of_trim target
      rw [trim_eq, name_eq, List.append_assoc, List.cons_append] at target_eq
      refine ⟨lead, protocol, blank, rest ++ tail, target_eq.symm, blank_lead, is_protocol,
        is_blank, ?_⟩
      have filled : isBlankText (blank :: rest) = false := by
        refine Text.isBlankText_of_last (List.cons_ne_nil _ _) ?_
        rw [← name_eq]
        exact last_withoutProtocol target
      have rest_filled : isBlankText rest = false := by
        simpa [isBlankText, is_blank] using filled
      rw [Text.isBlankText_append, rest_filled, Bool.false_and]
    · rw [plain_eq] at head
      rw [Text.head_trimLeft (trimRight target) blank head] at is_blank
      contradiction

/-- Why a host is refused. -/
def objection? (host : List Char) : Option String :=
  if host = [] then some "missing host"
  else if '\\' ∈ host then some "named instances are not supported, give a port instead"
  else none

/-- The address with a host and a port, unless the host is refused. -/
def located (target : String) (host : List Char) (port : UInt16) : Except SessionError Address :=
  match objection? host with
  | some reason => .error (refuse target reason)
  | none => .ok { host := hostOf host, port }

theorem objection?_eq_none_iff {host : List Char} :
    objection? host = none ↔ host ≠ [] ∧ '\\' ∉ host := by
  by_cases nothing : host = [] <;> by_cases backslash : '\\' ∈ host <;>
    simp [objection?, nothing, backslash]

section Parse

variable {target : String} {host rest : List Char} {port : UInt16}

theorem located_eq (target : String) (host : List Char) (port : UInt16) :
    located target host port = (do
      if host.isEmpty then
        throw (refuse target "missing host")
      if host.contains '\\' then
        throw (refuse target "named instances are not supported, give a port instead")
      return { host := hostOf host, port }) := by
  by_cases nothing : host = []
  · rw [nothing]
    rfl
  · have filled : host.isEmpty = false := by simpa using nothing
    by_cases backslash : '\\' ∈ host
    · have contained : host.contains '\\' = true := by simpa using backslash
      simp only [located, objection?, filled, contained, if_neg nothing, if_pos backslash]
      rfl
    · have contained : host.contains '\\' = false := by simpa using backslash
      simp only [located, objection?, filled, contained, if_neg nothing, if_neg backslash]
      rfl

/-- What stands in front of the first comma is the host, and what stands behind it the port. -/
theorem parse_of_run (run : Text.Run (· != ',') (withoutProtocol target.toList) host rest) :
    parse target port =
      match rest with
      | [] => located target host port
      | _ :: behind =>
          match port? (trim behind) with
          | some own => located target (trim host) own
          | none => .error (refuse target "port must be a number between 0 and 65535") := by
  unfold parse
  simp only [run.takeWhile_eq, run.dropWhile_eq]
  cases rest with
  | nil => exact (located_eq target host port).symm
  | cons comma behind =>
      cases own_eq : port? (trim behind) with
      | none =>
          simp only [own_eq]
          rfl
      | some own =>
          simp only [own_eq]
          exact (located_eq target (trim host) own).symm

theorem located_ok {address : Address} (located_eq : located target host port = .ok address) :
    host ≠ [] ∧ '\\' ∉ host ∧ address = { host := hostOf host, port } := by
  unfold located at located_eq
  split at located_eq
  · contradiction
  · rename_i allowed
    obtain ⟨filled, no_backslash⟩ := objection?_eq_none_iff.mp allowed
    exact ⟨filled, no_backslash, (Except.ok.inj located_eq).symm⟩

/-- A name without a comma has no port, and the host is all of it behind the protocol. -/
theorem parse_of_no_comma (no_comma : ',' ∉ target.toList) (port : UInt16) :
    parse target port = located target (withoutProtocol target.toList) port := by
  have outside := mt (comma_mem_withoutProtocol target.toList).mp no_comma
  have run : Text.Run (· != ',') (withoutProtocol target.toList)
      (withoutProtocol target.toList) [] :=
    ⟨List.append_nil _, fun c member => bne_iff_ne.mpr fun comma => outside (comma ▸ member), nofun⟩
  exact parse_of_run run

/-- What stands in front of the first comma is the host, without blanks around it. -/
theorem parse_of_comma (no_comma : ',' ∉ host) {behind : List Char}
    (name_eq : withoutProtocol target.toList = host ++ ',' :: behind) :
    parse target port =
      match port? (trim behind) with
      | some own => located target (trim host) own
      | none => .error (refuse target "port must be a number between 0 and 65535") := by
  have run : Text.Run (· != ',') (withoutProtocol target.toList) host (',' :: behind) :=
    ⟨name_eq.symm, fun c member => bne_iff_ne.mpr fun comma => no_comma (comma ▸ member),
      by rintro _ ⟨⟩; rfl⟩
  exact parse_of_run run

end Parse

section Decimal

theorem isDigit_of_mem_toString {number : Nat} :
    ∀ c ∈ (toString number).toList, c.isDigit = true := by
  intro c member
  rw [show (toString number).toList = Nat.toDigits 10 number from Nat.toList_repr] at member
  exact Nat.isDigit_of_mem_toDigits (by decide) (by decide) member

theorem not_isBlank_of_mem_toString {number : Nat} :
    ∀ c ∈ (toString number).toList, isBlank c = false := by
  intro c member
  apply Text.not_isBlank_of_isWordCharacter
  simp [Text.isWordCharacter, Char.isAlphanum, isDigit_of_mem_toString c member]

/-- Digits without a sign are read as the number that they denote. -/
theorem port?_of_digits {digits : List Char} (filled : digits ≠ [])
    (all_digits : ∀ c ∈ digits, c.isDigit = true)
    (in_range : Text.decimalValue digits < UInt16.size) :
    port? digits = some (UInt16.ofNat (Text.decimalValue digits)) := by
  obtain ⟨c, rest, rfl⟩ := List.exists_cons_of_ne_nil filled
  have no_sign : c ≠ '+' := by
    rintro rfl
    exact absurd (all_digits '+' List.mem_cons_self) (by decide)
  unfold port?
  split
  · exact absurd (List.cons.inj ‹_›).1 no_sign
  · simp only [List.all_eq_true.mpr all_digits, in_range, List.isEmpty_cons]
    rfl

/-- A port is read back from its decimal digits. -/
theorem port?_toString (port : UInt16) : port? (toString port.toNat).toList = some port := by
  have digits_eq : (toString port.toNat).toList = Nat.toDigits 10 port.toNat := Nat.toList_repr
  have value : Text.decimalValue (toString port.toNat).toList = port.toNat := by
    rw [digits_eq]
    exact Nat.ofDigitChars_toDigits (by decide) (by decide)
  have filled : (toString port.toNat).toList ≠ [] := digits_eq ▸ Nat.toDigits_ne_nil
  have in_range : Text.decimalValue (toString port.toNat).toList < UInt16.size := by
    rw [value]
    exact port.toNat_lt
  rw [port?_of_digits filled isDigit_of_mem_toString in_range, value, UInt16.ofNat_toNat]

end Decimal

section HostOf

variable {host : List Char}

theorem hostOf_cases (host : List Char) :
    (host = ['.'] ∨ host = ['(', 'l', 'o', 'c', 'a', 'l', ')']) ∧ hostOf host = "localhost" ∨
      (host ≠ ['.'] ∧ host ≠ ['(', 'l', 'o', 'c', 'a', 'l', ')']) ∧
        hostOf host = String.ofList host := by
  unfold hostOf
  split
  · rename_i named
    exact .inl ⟨by simpa using named, rfl⟩
  · rename_i other
    exact .inr ⟨by simpa using other, rfl⟩

theorem isHost_hostOf (filled : host ≠ []) (no_comma : ',' ∉ host) (no_backslash : '\\' ∉ host)
    (last : ∀ c ∈ host.getLast?, isBlank c = false) : IsHost (hostOf host) := by
  rcases hostOf_cases host with ⟨-, host_eq⟩ | ⟨⟨not_dot, not_local⟩, host_eq⟩
  · have last_eq : "localhost".toList.getLast? = some 't' := by decide
    rw [host_eq]
    exact ⟨by decide, by decide, by decide, by rw [last_eq]; rintro _ ⟨⟩; rfl, by decide, by decide⟩
  · have text_eq : (hostOf host).toList = host := by rw [host_eq, String.toList_ofList]
    have ne_of (name : String) (other : host ≠ name.toList) : hostOf host ≠ name :=
      fun same => other (by rw [← same, text_eq])
    refine ⟨ne_of "" filled, ?_, ?_, ?_, ne_of "." not_dot, ne_of "(local)" not_local⟩ <;>
      rw [text_eq]
    · exact no_comma
    · exact no_backslash
    · exact last

/-- The other names of the local machine have no blank in front, and neither has its usual name. -/
theorem head_hostOf_iff (host : List Char) :
    (∃ c ∈ (hostOf host).toList.head?, isBlank c = true) ↔
      ∃ c ∈ host.head?, isBlank c = true := by
  have head_eq : "localhost".toList.head? = some 'l' := by decide
  rcases hostOf_cases host with ⟨named, host_eq⟩ | ⟨-, host_eq⟩
  · rw [host_eq, head_eq]
    refine iff_of_false (by rintro ⟨_, ⟨⟩, ⟨⟩⟩) ?_
    rcases named with rfl | rfl <;> rintro ⟨_, ⟨⟩, ⟨⟩⟩
  · rw [host_eq, String.toList_ofList]

/-- The name of the local machine has no blanks around it. -/
theorem hostOf_trim_hostOf (host : List Char) :
    hostOf (trim (hostOf host).toList) = hostOf (trim host) := by
  rcases hostOf_cases host with ⟨rfl | rfl, -⟩ | ⟨-, host_eq⟩
  · decide
  · decide
  · rw [host_eq, String.toList_ofList]

end HostOf

section Names

variable {target : String} {port : UInt16} {address : Address}

/-- The host of an address is written without commas and backslashes.  A blank at its beginning
comes from a gap. -/
theorem host_of_parse (parse_eq : parse target port = .ok address) :
    IsHost address.host ∧
      ((∃ c ∈ address.host.toList.head?, isBlank c = true) ↔
        Gapped target.toList ∧ ',' ∉ target.toList) := by
  by_cases comma : ',' ∈ target.toList
  · obtain ⟨host, behind, name_eq, no_comma⟩ :=
      List.eq_append_cons_of_mem ((comma_mem_withoutProtocol target.toList).mpr comma)
    rw [parse_of_comma no_comma name_eq] at parse_eq
    split at parse_eq
    · rename_i own _
      obtain ⟨filled, no_backslash, rfl⟩ := located_ok parse_eq
      have outside : ',' ∉ trim host := mt (Text.mem_trim_iff (by decide)).mp no_comma
      refine ⟨isHost_hostOf filled outside no_backslash (Text.last_trim host), ?_⟩
      rw [head_hostOf_iff]
      refine ⟨?_, fun ⟨_, without⟩ => absurd comma without⟩
      rintro ⟨c, head, blank⟩
      rw [Text.head_trimLeft _ c head] at blank
      contradiction
    · contradiction
  · rw [parse_of_no_comma comma] at parse_eq
    obtain ⟨filled, no_backslash, rfl⟩ := located_ok parse_eq
    have outside := mt (comma_mem_withoutProtocol target.toList).mp comma
    refine ⟨isHost_hostOf filled outside no_backslash (last_withoutProtocol _), ?_⟩
    rw [head_hostOf_iff, ← gapped_iff, and_iff_left comma]

/-- A name with a port behind it has the host of the name, without blanks around it. -/
theorem parse_ported (no_comma : ',' ∉ target.toList) (port defaultPort : UInt16) :
    parse (target ++ "," ++ toString port.toNat) defaultPort =
      located (target ++ "," ++ toString port.toNat) (trim (withoutProtocol target.toList))
        port := by
  have ported_eq : (target ++ "," ++ toString port.toNat).toList =
      target.toList ++ ',' :: (toString port.toNat).toList := by
    simp [String.toList_append]
  have filled : (toString port.toNat).toList ≠ [] := by
    rw [show (toString port.toNat).toList = Nat.toDigits 10 port.toNat from Nat.toList_repr]
    exact Nat.toDigits_ne_nil
  have digits_trimmed : trim (toString port.toNat).toList = (toString port.toNat).toList :=
    Text.trim_eq_self (fun c head => not_isBlank_of_mem_toString c (List.mem_of_mem_head? head))
      fun c last => not_isBlank_of_mem_toString c (List.mem_of_mem_getLast? last)
  have last : ∀ c ∈ (',' :: (toString port.toNat).toList).getLast?, isBlank c = false := by
    rw [List.getLast?_cons_of_ne_nil filled]
    exact fun c last => not_isBlank_of_mem_toString c (List.mem_of_mem_getLast? last)
  obtain ⟨blanks, blank, name_eq⟩ := withoutProtocol_append target.toList last
  have outside : ',' ∉ withoutProtocol target.toList ++ blanks := by
    rw [List.mem_append, comma_mem_withoutProtocol]
    rintro (member | member)
    · exact no_comma member
    · exact absurd (List.all_eq_true.mp blank ',' member) (by decide)
  rw [← ported_eq] at name_eq
  rw [parse_of_comma outside name_eq, digits_trimmed, port?_toString]
  dsimp only
  rw [Text.trim_append_of_blank _ blank]

/-- Only a gap lets the blanks around a host tell two addresses apart. -/
theorem hostOf_trim_iff (target : List Char) :
    hostOf (trim (withoutProtocol target)) = hostOf (withoutProtocol target) ↔
      ¬Gapped target := by
  rw [gapped_iff]
  constructor
  · intro same blank_head
    rw [← head_hostOf_iff, ← same, head_hostOf_iff] at blank_head
    obtain ⟨c, head, blank⟩ := blank_head
    rw [Text.head_trimLeft _ c head] at blank
    contradiction
  · intro no_blank
    rw [Text.trim_eq_self ?_ (last_withoutProtocol target)]
    intro c head
    exact Bool.eq_false_iff.mpr fun blank => no_blank ⟨c, head, blank⟩

/-- Blanks around a host make no difference to whether it is refused. -/
theorem objection?_trim {host : List Char} (last : ∀ c ∈ host.getLast?, isBlank c = false) :
    objection? (trim host) = objection? host := by
  have empty_iff : trim host = [] ↔ host = [] := by
    refine ⟨fun nothing => by_contra fun filled => ?_, fun nothing => by rw [nothing]; rfl⟩
    have not_blank := last _ (List.getLast?_eq_some_getLast filled)
    have member := (Text.mem_trim_iff not_blank).mpr (List.getLast_mem filled)
    rw [nothing] at member
    contradiction
  have backslash_iff : '\\' ∈ trim host ↔ '\\' ∈ host := Text.mem_trim_iff (by decide)
  simp only [objection?, empty_iff, backslash_iff]

/-- The host of every address is written without commas and backslashes, does not end with a blank,
and is not one of the other names of the local machine; it begins with a blank exactly if the name
has a gap and no port.  A name with a port behind it is refused for the same reason as the name
alone with this default port, or both have addresses with this port.  These are the same address
exactly if the name has no gap; otherwise the host of one has blanks in front and that of the other
has not. -/
theorem addresses_of_names (target : String) (port : UInt16) :
    (∀ address, parse target port = .ok address →
      IsHost address.host ∧
        ((∃ c ∈ address.host.toList.head?, isBlank c = true) ↔
          Gapped target.toList ∧ ',' ∉ target.toList)) ∧
      ∀ defaultPort, ',' ∉ target.toList →
        let ported := target ++ "," ++ toString port.toNat
        (∃ reason, parse target port = .error (refuse target reason) ∧
          parse ported defaultPort = .error (refuse ported reason)) ∨
        ∃ address address', parse target port = .ok address ∧
          parse ported defaultPort = .ok address' ∧ address.port = port ∧ address'.port = port ∧
            (address' = address ↔ ¬Gapped target.toList) ∧
              address'.host = hostOf (trim address.host.toList) := by
  refine ⟨fun address => host_of_parse, fun defaultPort no_comma => ?_⟩
  intro ported
  rw [parse_of_no_comma no_comma, show parse ported defaultPort = _ from parse_ported no_comma _ _,
    located, located, objection?_trim (last_withoutProtocol target.toList)]
  cases objection? (withoutProtocol target.toList) with
  | some reason => exact .inl ⟨reason, rfl, rfl⟩
  | none =>
      refine .inr ⟨_, _, rfl, rfl, rfl, rfl, ?_, ?_⟩
      · rw [← hostOf_trim_iff, mk.injEq, and_iff_left rfl]
      · dsimp only
        rw [hostOf_trim_hostOf]

/-- A gap is kept in front of a host; without a gap both names mean the local machine. -/
theorem addresses_with_and_without_gap :
    (',' ∉ "tcp: db01".toList ∧ Gapped "tcp: db01".toList ∧
      parse "tcp: db01" 1433 = .ok { host := " db01", port := 1433 } ∧ IsHost " db01" ∧
        ∃ address, parse "tcp: db01,1433" 0 = .ok address ∧ address.port = 1433 ∧
          address.host = "db01") ∧
      ',' ∉ " TCP:(local) ".toList ∧ ¬Gapped " TCP:(local) ".toList ∧
        parse " TCP:(local) " 1433 = .ok { host := "localhost", port := 1433 } ∧
          parse " TCP:(local) ,1433" 0 = .ok { host := "localhost", port := 1433 } := by
  have gapped : parse "tcp: db01" 1433 = .ok { host := " db01", port := 1433 } := by
    decide +kernel
  have tight : parse " TCP:(local) " 1433 = .ok { host := "localhost", port := 1433 } := by
    decide +kernel
  have same : parse " TCP:(local) ,1433" 0 = .ok { host := "localhost", port := 1433 } := by
    decide +kernel
  obtain ⟨hosts, ports⟩ := addresses_of_names "tcp: db01" 1433
  obtain ⟨is_host, blank_iff⟩ := hosts _ gapped
  have without : ',' ∉ "tcp: db01".toList := by decide
  have without' : ',' ∉ " TCP:(local) ".toList := by decide
  have has_gap := (blank_iff.mp ⟨' ', by decide, rfl⟩).1
  refine ⟨⟨without, has_gap, gapped, is_host, ?_⟩, without', ?_, tight, same⟩
  · rcases ports 0 without with
      ⟨_, refused, -⟩ | ⟨_, address, found, found', -, port_eq, -, host_eq⟩
    · cases gapped.symm.trans refused
    · obtain rfl := Except.ok.inj (found.symm.trans gapped)
      exact ⟨address, found', port_eq, host_eq.trans (by decide)⟩
  · rcases (addresses_of_names " TCP:(local) " 1433).2 0 without' with
      ⟨_, refused, -⟩ | ⟨_, _, found, found', -, -, same_iff, -⟩
    · cases tight.symm.trans refused
    · refine same_iff.mp ?_
      obtain rfl := Except.ok.inj (found.symm.trans tight)
      exact Except.ok.inj (found'.symm.trans same)

/-- A blank behind the protocol becomes part of the host, unless the default port is given. -/
theorem blank_in_host :
    parse "tcp: x" 1433 = .ok { host := " x", port := 1433 } ∧ isBlank ' ' = true ∧
      parse "tcp: x,1433" 1433 = .ok { host := "x", port := 1433 } := by
  decide +kernel

end Names

end Address
end Server
end SqlScript
