import HttpGateway.Proofs.Http.Hygiene
import HttpGateway.Proofs.Http.Readable
import HttpGateway.Proofs.Net.Address
import HttpGateway.Proofs.Pattern.Pieces
import Mathlib

/-!
# The chain of clients

Gateways tell each other the clients that a request has come through, as a list that each of them
continues. The list may be spread over several lines, but only the first line is continued, and it
takes the place of all of them. So the chain is kept if all of it stands in the first line, and else
what the other lines tell is lost.
-/

namespace HttpGateway

namespace Text

theorem trim_of_not_isBlank {s : List Char} (h : ∀ c ∈ s, isBlank c = false) : trim s = s := by
  have hkeep (t : List Char) (ht : ∀ c ∈ t, isBlank c = false) : t.dropWhile isBlank = t := by
    cases t with
    | nil => rfl
    | cons c t => rw [List.dropWhile_cons, ht c List.mem_cons_self, if_neg Bool.false_ne_true]
  have hreverse : ∀ c ∈ s.reverse, isBlank c = false := fun c hc => h c (List.mem_reverse.mp hc)
  rw [trim, trimStart, trimEnd, hkeep s h, hkeep _ hreverse, List.reverse_reverse]

end Text

namespace Net

/-- The text of an address can be read in a header, and has neither commas nor blanks. -/
theorem readable_alphabet :
    ∀ c ∈ alphabet, IsReadable c ∧ c ≠ ',' ∧ Text.isBlank c = false := by
  have hall : alphabet.all
      (fun c => decide (IsReadable c ∧ c ≠ ',' ∧ Text.isBlank c = false)) = true := by decide
  exact fun c hc => of_decide_eq_true (List.all_eq_true.mp hall c hc)

end Net

namespace Address

variable (a : Address)

theorem readable : ∀ c ∈ a.render.toList, IsReadable c ∧ c ≠ ',' ∧ Text.isBlank c = false :=
  fun c hc => Net.readable_alphabet c (mem_alphabet_of_mem_render hc)

theorem trimText_render : trimText a.render = a.render := by
  rw [trimText, Text.trim_of_not_isBlank fun c hc => (a.readable c hc).2.2, String.ofList_toList]

end Address

/-- The elements of a list: what stands between the commas, without the blanks around it. A line
without text has none, and neither has one that cannot be read. -/
def HeaderValue.listElements (v : HeaderValue) : List String :=
  match v.text? with
  | none => []
  | some line => if line = "" then [] else (piecesOf ',' line).map trimText

theorem Address.listElements_render (a : Address) :
    (HeaderValue.literal a.render).listElements = [a.render] := by
  have hread : ∀ c ∈ a.render.toList, IsReadable c := fun c hc => (a.readable c hc).1
  have hcomma : ',' ∉ a.render.toList := fun hmem => (a.readable ',' hmem).2.1 rfl
  simp only [HeaderValue.listElements, HeaderValue.text?_literal hread, if_neg a.render_ne_empty,
    piecesOf, Text.pieces_of_not_mem hcomma, List.map_singleton, String.ofList_toList,
    a.trimText_render]

namespace Headers

/-- The clients that the headers tell, line by line. -/
def clients (h : Headers) : List String :=
  (h.values HeaderName.forwardedFor).flatMap HeaderValue.listElements

/-- The clients that the first line tells. -/
def firstClients (h : Headers) : List String :=
  ((h.values HeaderName.forwardedFor).take 1).flatMap HeaderValue.listElements

/-- The clients that the other lines tell. -/
def furtherClients (h : Headers) : List String :=
  ((h.values HeaderName.forwardedFor).drop 1).flatMap HeaderValue.listElements

variable (h : Headers)

theorem clients_eq : h.clients = h.firstClients ++ h.furtherClients := by
  rw [firstClients, furtherClients, ← List.flatMap_append, List.take_append_drop, clients]

theorem firstClients_eq : h.firstClients =
    match h.text? HeaderName.forwardedFor with
    | none => []
    | some line => if line = "" then [] else (piecesOf ',' line).map trimText := by
  unfold firstClients text? first?
  cases h.values HeaderName.forwardedFor with
  | nil => rfl
  | cons v vs => simp [HeaderValue.listElements]

/-- The text of an address is put behind a line as one more element. -/
theorem elements_append_render (line : String) (a : Address) :
    (piecesOf ',' (line ++ ", " ++ a.render)).map trimText =
      (piecesOf ',' line).map trimText ++ [a.render] := by
  have hcomma : ',' ∉ ' ' :: a.render.toList := by
    rw [List.mem_cons, not_or]
    exact ⟨by decide, fun hmem => (a.readable ',' hmem).2.1 rfl⟩
  have hsplit : (line ++ ", " ++ a.render).toList =
      line.toList ++ ',' :: ' ' :: a.render.toList := by
    simp
  have htrim : trimText (String.ofList (' ' :: a.render.toList)) = trimText a.render := by
    rw [trimText, String.toList_ofList]
    rfl
  rw [piecesOf, hsplit, Text.pieces_append_sep, Text.pieces_of_not_mem hcomma, piecesOf,
    List.map_append, List.map_append, List.map_singleton, List.map_singleton, htrim,
    a.trimText_render]

/-- The line that is written tells the clients of the first line, and the one that is added. -/
theorem listElements_clientChain (a : Address) :
    (HeaderValue.literal (h.clientChain a)).listElements = h.firstClients ++ [a.render] := by
  have hrender : ∀ c ∈ a.render.toList, IsReadable c := fun c hc => (a.readable c hc).1
  rw [firstClients_eq, clientChain]
  cases hline : h.text? HeaderName.forwardedFor with
  | none => exact a.listElements_render
  | some line =>
      dsimp only
      split
      next hempty => exact a.listElements_render
      next hne =>
        obtain ⟨v, -, hv⟩ := Option.bind_eq_some_iff.mp hline
        have hread : ∀ c ∈ (line ++ ", " ++ a.render).toList, IsReadable c := by
          have hcomma : ∀ c ∈ ", ".toList, IsReadable c := by simp [IsReadable]
          simp only [String.toList_append, List.mem_append]
          rintro c ((hc | hc) | hc)
          · exact HeaderValue.isReadable_of_text? hv c hc
          · exact hcomma c hc
          · exact hrender c hc
        have hsome : line ++ ", " ++ a.render ≠ "" := by simp
        simp only [HeaderValue.listElements, HeaderValue.text?_literal hread, if_neg hsome]
        exact elements_append_render line a

variable (client : Option Address) (host : Option HeaderValue)

theorem clients_addForwarded_some (a : Address) :
    (h.addForwarded (some a) host).clients = h.firstClients ++ [a.render] := by
  rw [clients, values_forwardedFor_addForwarded, List.flatMap_singleton, listElements_clientChain]

theorem clients_addForwarded_none : (h.addForwarded none host).clients = h.clients := by
  rw [clients, values_forwardedFor_addForwarded, clients]

/-- The chain of clients is continued by the client just if the first line tells all of it, or if
there is no client to tell of. With a client, the chain becomes what the first line tells and the
client behind it; what the other lines tell is lost. Headers that say nothing of clients, protocol
or host stay as they are. -/
theorem clients_addForwarded_iff :
    ((h.addForwarded client host).clients = h.clients ++ (client.map Address.render).toList ↔
      client = none ∨ h.furtherClients = []) ∧
    (∀ a, client = some a → (h.addForwarded client host).clients = h.firstClients ++ [a.render]) ∧
    ∀ n, n ∉ added → (h.addForwarded client host).values n = h.values n := by
  refine ⟨?_, ?_, fun n hn => h.values_addForwarded_of_not_mem client host hn⟩
  · cases client with
    | none => simp [clients_addForwarded_none]
    | some a =>
        rw [clients_addForwarded_some, clients_eq]
        simp
  · rintro a rfl
    exact h.clients_addForwarded_some host a

/-- A chain of clients in two lines. -/
def twoLines : Headers :=
  ⟨[(HeaderName.forwardedFor, HeaderValue.literal "10.0.0.9, 10.0.0.8"),
    (HeaderName.forwardedFor, HeaderValue.literal "10.0.0.7")]⟩

/-- The second line is lost. -/
theorem clients_addForwarded_fails :
    twoLines.clients = ["10.0.0.9", "10.0.0.8", "10.0.0.7"] ∧
      (twoLines.addForwarded (some (.v4 0x0A000001)) none).clients ≠
        twoLines.clients ++ ["10.0.0.1"] ∧
      (twoLines.addForwarded (some (.v4 0x0A000001)) none).clients =
        ["10.0.0.9", "10.0.0.8", "10.0.0.1"] := by
  have hbefore : twoLines.clients = ["10.0.0.9", "10.0.0.8", "10.0.0.7"] := by cbv
  have hfirst : twoLines.firstClients = ["10.0.0.9", "10.0.0.8"] := by cbv
  have hrender : (Address.v4 0x0A000001).render = "10.0.0.1" := by rfl
  have hafter : (twoLines.addForwarded (some (.v4 0x0A000001)) none).clients =
      ["10.0.0.9", "10.0.0.8", "10.0.0.1"] := by
    rw [clients_addForwarded_some, hfirst, hrender]
    rfl
  refine ⟨hbefore, ?_, hafter⟩
  rw [hafter, hbefore]
  decide

end Headers

end HttpGateway
