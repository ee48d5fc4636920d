import MeshControl.CommandLine.Admin
import MeshControl.Backend.Memory
import MeshControl.Connection.Dispatch
import MeshControl.Proofs.Message.Addressing
import MeshControl.Proofs.Text.Pairing
import Mathlib.Data.List.Basic

/-!
What a watcher prints can be typed again. The lines of an event are made of words with single
spaces between (`words`), and a word that does not start with a hyphen is an argument of a line as
it stands. So the entry of a printed line is withdrawn by a line made of its own words
(`printed_bytes_read_back`, `printed_prefix_reads_back`).
-/

namespace MeshControl.CommandLine

/-- The words of a printed line, with nothing where a space follows another or stands first. -/
def words (line : String) : List String :=
  (line.toList.splitOn ' ').map String.ofList

/-- A line that is made of parts without spaces has them as its words. -/
theorem words_intercalate {parts : List String} (hparts : ∀ part ∈ parts, ' ' ∉ part.toList)
    (hsome : parts ≠ []) : words (" ".intercalate parts) = parts := by
  have hsplit : ([' '].intercalate (parts.map String.toList)).splitOn ' ' =
      parts.map String.toList :=
    List.splitOn_intercalate ' ' (by simpa using hparts) (by simpa using hsome)
  have hlist : (" ".intercalate parts).toList = [' '].intercalate (parts.map String.toList) :=
    String.toList_intercalate
  rw [words, hlist, hsplit, List.map_map]
  simp

/-! ## Reading arguments that stand as they are -/

/-- Text without spaces and hyphens. It is one word where it is printed, and an argument as it
stands where it is typed. -/
def IsBare (text : String) : Prop := ' ' ∉ text.toList ∧ '-' ∉ text.toList

instance (text : String) : Decidable (IsBare text) := inferInstanceAs (Decidable (_ ∧ _))

theorem IsBare.append {left right : String} (hleft : IsBare left) (hright : IsBare right) :
    IsBare (left ++ right) := by
  simp [IsBare, hleft.1, hleft.2, hright.1, hright.2]

theorem isBare_toString (n : Nat) : IsBare (toString n) := by
  have hdigit : ∀ c ∈ (toString n).toList, c.isDigit := by
    intro c hc
    obtain ⟨_, _, hlist, -, hdigits⟩ := Text.Decimal.toList_toString n
    rw [hlist, hdigits] at hc
    exact Nat.isDigit_of_mem_toDigits (by decide) (by decide) hc
  exact ⟨fun h => absurd (hdigit _ h) (by decide), fun h => absurd (hdigit _ h) (by decide)⟩

theorem isBare_dump (bytes : Bytes) : IsBare (Text.Hex.dump bytes) :=
  ⟨fun h => absurd (Text.Hex.mem_dump h) (by decide),
    fun h => absurd (Text.Hex.mem_dump h) (by decide)⟩

theorem isBare_render (meshPrefix : MeshPrefix) (length : UInt8) :
    IsBare (meshPrefix.render length) := by
  have haddress : IsBare (Text.Ipv6.render meshPrefix.groups) :=
    ⟨fun h => absurd (MeshPrefix.mem_render_groups h) (by decide),
      fun h => absurd (MeshPrefix.mem_render_groups h) (by decide)⟩
  exact (haddress.append (by decide)).append (isBare_toString _)

theorem Shape.ofText_plain {text : String} (h : text.toList.head? ≠ some '-') :
    ofText text = plain := by
  unfold ofText
  cases hlist : text.toList with
  | nil => rfl
  | cons c rest =>
    have hc : c ≠ '-' := fun hc => h (by rw [hlist, hc]; rfl)
    split
    · exact absurd (List.cons.inj ‹_›).1 hc
    · exact absurd (List.cons.inj ‹_›).1 hc
    · exact absurd (List.cons.inj ‹_›).1 hc
    · rfl

theorem IsBare.plain {text : String} (h : IsBare text) : Shape.ofText text = .plain :=
  Shape.ofText_plain fun hhead => h.2 (List.mem_of_head? hhead)

namespace Grammar

variable {α : Type} {grammar : Grammar α} {progress : Progress α} {text : String}
  {rest : List String}

/-- The name of a command hands the rest of the line to the command. -/
theorem readOn_command {command : Command α} (hplain : Shape.ofText text = .plain)
    (hcommand : grammar.findCommand? text = some command) :
    grammar.readOn progress (text :: rest) = command.read rest progress.value := by
  rw [readOn]
  simp only [hplain, hcommand]

/-- Without commands a plain argument is taken as the next positional one. -/
theorem readOn_positional {after : Progress α} (hplain : Shape.ofText text = .plain)
    (hcommands : grammar.commands = []) (htake : progress.takePositional text = .ok after) :
    grammar.readOn progress (text :: rest) = grammar.readOn after rest := by
  rw [readOn]
  simp only [hplain, findCommand?, hcommands, List.find?_nil, List.isEmpty_nil, htake]
  simp

end Grammar

namespace Admin

/-- A line that is read as a task which makes the call of one request. -/
def Requests (line : List String) (request : Request) : Prop :=
  ∃ invocation, read line = .ok invocation ∧ ∃ print, ∀ client,
    invocation.task.run client = perform (.ok (Client.call request)) print client

theorem word?_toString (n : UInt32) : word? (toString n.toNat) = some n := by
  have hread := Text.Decimal.readSignedUpTo_toString (Nat.le_of_lt_succ n.toNat_lt)
  unfold word?
  simp only [hread, UInt32.ofNat_toNat]

/-- Arguments that spell a service make a line that withdraws it. -/
theorem requests_removeService {number data : String} {enterprise : UInt32} {serviceData : Bytes}
    (hnumber : IsBare number) (hdata : IsBare data) (henterprise : word? number = some enterprise)
    (hbytes : bytes data = .ok serviceData) :
    Requests ["remove-service", number, data] (.removeService enterprise serviceData) := by
  have hread : removeServiceGrammar.read {} [number, data] =
      .ok { enterprise, serviceData := data } := by
    have hcommands : removeServiceGrammar.commands = [] := rfl
    have hfirst : Progress.takePositional
        { value := {}, positionals := removeServiceGrammar.positionals } number =
        .ok { value := { enterprise }, positionals := removeServiceGrammar.positionals.tail } := by
      simp [Progress.takePositional, removeServiceGrammar, servicePositionals, henterprise]
    rw [Grammar.read, Grammar.readOn_positional hnumber.plain hcommands hfirst,
      Grammar.readOn_positional hdata.plain hcommands rfl, Grammar.readOn]
    rfl
  refine ⟨⟨defaultSocketPath, .removeService enterprise data⟩, ?_, fun _ => "Service removed",
    fun client => ?_⟩
  · rw [read, Grammar.read, Grammar.readOn_command (by decide) rfl]
    simp only [taskCommand, Command.ofGrammar, hread]
    rfl
  · simp only [Task.run, hbytes]
    rfl

/-- An argument that spells a prefix with a length makes a line that withdraws it. -/
theorem requests_removePrefix {spelled : String} {entry : MeshPrefix} {length : UInt8}
    (hspelled : IsBare spelled) (hentry : meshPrefix spelled = .ok (entry, length)) :
    Requests ["remove-prefix", spelled] (.removePrefix entry.bytes length) := by
  have hread : removePrefixGrammar.read {} [spelled] = .ok { spelling := spelled } := by
    have hcommands : removePrefixGrammar.commands = [] := rfl
    rw [Grammar.read, Grammar.readOn_positional hspelled.plain hcommands rfl, Grammar.readOn]
    rfl
  refine ⟨⟨defaultSocketPath, .removePrefix spelled⟩, ?_, fun _ => "Prefix removed",
    fun client => ?_⟩
  · rw [read, Grammar.read, Grammar.readOn_command (by decide) rfl]
    simp only [taskCommand, Command.ofGrammar, hread]
    rfl
  · simp only [Task.run, hentry]
    rfl

/-! ## What is printed can be typed -/

theorem toString_self (text : String) : toString text = text := rfl

/-- The words of the line that is printed for a service. -/
theorem words_of_services {services : List Service} {index : Nat} {service : Service}
    (h : services[index]? = some service) :
    ∃ line, (eventLines (.services services))[index + 1]? = some line ∧
      words line = ["", "", toString service.enterprise.toNat,
        "service=" ++ Text.Hex.dump service.serviceData,
        "server=" ++ Text.Hex.dump service.serverData] := by
  refine ⟨" ".intercalate ["", "", toString service.enterprise.toNat,
    "service=" ++ Text.Hex.dump service.serviceData,
    "server=" ++ Text.Hex.dump service.serverData], ?_, words_intercalate ?_ (by simp)⟩
  · simp only [eventLines, List.getElem?_cons_succ, List.getElem?_map, h, Option.map_some,
      Option.some.injEq]
    apply String.toList_inj.mp
    simp [toString_self]
  · have hservice := (IsBare.append (by decide : IsBare "service=")
      (isBare_dump service.serviceData)).1
    have hserver := (IsBare.append (by decide : IsBare "server=")
      (isBare_dump service.serverData)).1
    have hnumber := (isBare_toString service.enterprise.toNat).1
    simp only [List.forall_mem_cons]
    exact ⟨by decide, by decide, hnumber, hservice, hserver, by simp⟩

theorem isBare_bool (b : Bool) : IsBare (toString b) := by
  cases b <;> decide

/-- The words of the line that is printed for a prefix. -/
theorem words_of_prefixes {prefixes : List OnMeshPrefix} {index : Nat} {entry : OnMeshPrefix}
    (h : prefixes[index]? = some entry) :
    ∃ line, (eventLines (.prefixes prefixes))[index + 1]? = some line ∧
      words line = ["", "", entry.meshPrefix.render entry.length,
        "slaac=" ++ toString entry.slaac, "on_mesh=" ++ toString entry.onMesh,
        "stable=" ++ toString entry.stable] := by
  refine ⟨" ".intercalate ["", "", entry.meshPrefix.render entry.length,
    "slaac=" ++ toString entry.slaac, "on_mesh=" ++ toString entry.onMesh,
    "stable=" ++ toString entry.stable], ?_, words_intercalate ?_ (by simp)⟩
  · simp only [eventLines, List.getElem?_cons_succ, List.getElem?_map, h, Option.map_some,
      Option.some.injEq]
    apply String.toList_inj.mp
    simp [toString_self]
  · have hentry := (isBare_render entry.meshPrefix entry.length).1
    have hslaac := (IsBare.append (by decide : IsBare "slaac=") (isBare_bool entry.slaac)).1
    have honMesh := (IsBare.append (by decide : IsBare "on_mesh=") (isBare_bool entry.onMesh)).1
    have hstable := (IsBare.append (by decide : IsBare "stable=") (isBare_bool entry.stable)).1
    simp only [List.forall_mem_cons]
    exact ⟨by decide, by decide, hentry, hslaac, honMesh, hstable, by simp⟩

theorem bytes_eq_ok_iff {text : String} {data : Bytes} :
    bytes text = .ok data ↔ Text.Hex.read text = .ok data := by
  unfold bytes
  cases Text.Hex.read text <;> simp

/-- Flawed text is refused with a report that shows it and says what the flaw is. -/
theorem bytes_eq_error_iff {text : String} :
    (∃ flaw : Text.Hex.Flaw, bytes text =
      .error { text := s!"Invalid hex data: {Text.quoted text}", causes := [flaw.message] }) ↔
    ∃ flaw, Text.Hex.read text = .error flaw := by
  unfold bytes
  cases Text.Hex.read text with
  | ok data => simp
  | error flaw => exact ⟨fun _ => ⟨flaw, rfl⟩, fun _ => ⟨flaw, rfl⟩⟩

theorem bytes_dump (data : Bytes) : bytes (Text.Hex.dump data) = .ok data :=
  bytes_eq_ok_iff.mpr (Text.Hex.read_dump data)

theorem meshPrefix_eq_ok_iff {text : String} {result : MeshPrefix × UInt8} :
    meshPrefix text = .ok result ↔ MeshPrefix.read text = .ok result := by
  unfold meshPrefix
  cases MeshPrefix.read text <;> simp

/-- Bytes as they are printed are read as these bytes. In general text is read as the bytes that it
spells with two digits to a byte once its colons are gone, and is refused with a report of itself
when a digit is left over or a character is no digit. So the number and the data that are printed
for a service withdraw the service. -/
theorem printed_bytes_read_back :
    (∀ data : Bytes, bytes (Text.Hex.dump data) = .ok data) ∧
    (∀ (text : String) (data : Bytes),
      bytes text = .ok data ↔ Text.Hex.Spells (text.toList.filter (· ≠ ':')) data) ∧
    (∀ text : String,
      (∃ flaw : Text.Hex.Flaw, bytes text =
        .error { text := s!"Invalid hex data: {Text.quoted text}", causes := [flaw.message] }) ↔
      (text.toList.filter (· ≠ ':')).length % 2 = 1 ∨
        ∃ c ∈ text.toList.filter (· ≠ ':'), Text.Hex.IsForeign c) ∧
    ∀ (services : List Service) (index : Nat) (service : Service),
      services[index]? = some service →
      ∃ line number data, (eventLines (.services services))[index + 1]? = some line ∧
        (words line)[2]? = some number ∧ (words line)[3]? = some ("service=" ++ data) ∧
        Requests ["remove-service", number, data]
          (.removeService service.enterprise service.serviceData) := by
  refine ⟨bytes_dump, fun text data => bytes_eq_ok_iff.trans Text.Hex.read_eq_ok_iff,
    fun text => bytes_eq_error_iff.trans Text.Hex.exists_read_eq_error_iff,
    fun services index service h => ?_⟩
  obtain ⟨line, hline, hwords⟩ := words_of_services h
  refine ⟨line, _, _, hline, by rw [hwords]; rfl, by rw [hwords]; rfl, ?_⟩
  exact requests_removeService (isBare_toString _) (isBare_dump _) (word?_toString _) (bytes_dump _)

/-- A service on the mesh, as it is printed and as it is typed to withdraw it. -/
theorem printed_bytes_read_back_published :
    let service : Service :=
      { enterprise := 44970, serviceData := [0x5d, 0x01], serverData := [0xfd] }
    eventLines (.services [service]) = ["services (1):", "  44970 service=5d:01 server=fd"] ∧
      ∃ line number data, (eventLines (.services [service]))[1]? = some line ∧
        (words line)[2]? = some number ∧ (words line)[3]? = some ("service=" ++ data) ∧
        Requests ["remove-service", number, data] (.removeService 44970 [0x5d, 0x01]) := by
  intro service
  refine ⟨by decide +kernel, ?_⟩
  exact printed_bytes_read_back.2.2.2 [service] 0 service rfl

/-- A prefix with a length that it can have is read as it is printed, and what is read is never
longer than a prefix can be. So the word that is printed for an entry makes a request to withdraw
the prefix and the length that the entry is known by. -/
theorem printed_prefix_reads_back :
    (∀ (entry : MeshPrefix) (length : UInt8), length.toNat ≤ MeshPrefix.maxLength →
      meshPrefix (entry.render length) = .ok (entry, length)) ∧
    (∀ (text : String) (entry : MeshPrefix) (length : UInt8),
      meshPrefix text = .ok (entry, length) → length.toNat ≤ MeshPrefix.maxLength) ∧
    ∀ (prefixes : List OnMeshPrefix) (index : Nat) (entry : OnMeshPrefix),
      prefixes[index]? = some entry → entry.length.toNat ≤ MeshPrefix.maxLength →
      ∃ line spelled, (eventLines (.prefixes prefixes))[index + 1]? = some line ∧
        (words line)[2]? = some spelled ∧
        ∃ request, Requests ["remove-prefix", spelled] request ∧
          ∀ {β : Type} [Backend β] (backend : β), Backend.change? backend request =
            some ⟨(Backend.removePrefix backend entry.key.1 entry.key.2).1, .onMeshPrefix,
              (Backend.removePrefix backend entry.key.1 entry.key.2).2⟩ := by
  have hback : ∀ (entry : MeshPrefix) (length : UInt8), length.toNat ≤ MeshPrefix.maxLength →
      meshPrefix (entry.render length) = .ok (entry, length) := fun entry length h =>
    meshPrefix_eq_ok_iff.mpr (entry.read_render h)
  refine ⟨hback, fun text entry length h =>
    MeshPrefix.length_le_of_read (meshPrefix_eq_ok_iff.mp h),
    fun prefixes index entry h hlength => ?_⟩
  obtain ⟨line, hline, hwords⟩ := words_of_prefixes h
  refine ⟨line, _, hline, by rw [hwords]; rfl, _,
    requests_removePrefix (isBare_render _ _) (hback _ _ hlength), fun backend => ?_⟩
  simp only [Backend.change?, MeshPrefix.ofBytes?_bytes]
  rfl

/-- A prefix with a zero group inside, as it is printed and as it is typed to withdraw it. -/
theorem printed_prefix_reads_back_meshLocal :
    let meshPrefix : MeshPrefix := ⟨[0xfd, 0x12, 0, 0, 0, 0, 0, 0x01], rfl⟩
    let entry : OnMeshPrefix := ⟨meshPrefix, 64, true, true, false⟩
    eventLines (.prefixes [entry]) =
        ["prefixes (1):", "  fd12:0:0:1::/64 slaac=true on_mesh=true stable=false"] ∧
      Admin.meshPrefix (meshPrefix.render 64) = .ok (meshPrefix, 64) ∧
      ∃ line spelled, (eventLines (.prefixes [entry]))[1]? = some line ∧
        (words line)[2]? = some spelled ∧
        ∃ request, Requests ["remove-prefix", spelled] request ∧
          ∀ {β : Type} [Backend β] (backend : β), Backend.change? backend request =
            some ⟨(Backend.removePrefix backend meshPrefix 64).1, .onMeshPrefix,
              (Backend.removePrefix backend meshPrefix 64).2⟩ := by
  intro meshPrefix entry
  refine ⟨by decide +kernel, printed_prefix_reads_back.1 meshPrefix 64 (by decide), ?_⟩
  exact printed_prefix_reads_back.2.2 [entry] 0 entry rfl (by decide)

end Admin

end MeshControl.CommandLine
