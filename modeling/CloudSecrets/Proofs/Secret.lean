import CloudSecrets.Proofs.FileTree.Path
import CloudSecrets.Proofs.Json.Legible
import CloudSecrets.Secret

/-!
# Views of a secret

A secret has a public view and a payload, and both are read back from their text. The payload is one
line of printable ASCII. The public view has one line for each member and for each label
(`splitAtEach_publicText`): in the texts themselves line breaks are escaped, so none comes from what
a secret holds (`views_read_back`).
-/

namespace CloudSecrets

open Json Text

/-- What an option supplied is read back. -/
theorem Supplied.lossless_toJson (s : Supplied) : Lossless s.toJson := by
  cases s with
  | text s => exact .text s
  | nothing => exact .array fun x hx => absurd hx List.not_mem_nil

namespace Secret

variable {s : Secret} {id name description : String} {labels : Labels}

/-! ## Reading back -/

theorem lossless_credentials (s : Secret) : Lossless s.credentials := by
  refine .object (show ["username", "password"].Nodup by decide) fun f hf => ?_
  rcases List.mem_cons.mp hf with rfl | hf
  · exact s.username.lossless_toJson
  · rw [List.mem_singleton.mp hf]
    exact s.password.lossless_toJson

theorem lossless_labels (h : (labels.map Prod.fst).Nodup) :
    Lossless (.object (labels.map fun (k, v) => (k, .text v))) := by
  refine .object ?_ fun f hf => ?_
  · rw [List.map_map]
    exact h
  · obtain ⟨⟨k, v⟩, -, rfl⟩ := List.mem_map.mp hf
    exact .text v

theorem lossless_view (h : (s.labels.map Prod.fst).Nodup) : Lossless s.view := by
  refine .object (show ["ID", "Name", "Labels", "Description"].Nodup by decide) ?_
  simp only [List.forall_mem_cons]
  exact ⟨.text s.id, .text s.name, lossless_labels h, s.description.lossless_toJson,
    List.forall_mem_nil _⟩

/-- The payload of a secret is read back. -/
theorem parse_payload_eq (s : Secret) : parse s.payload.toList = .ok s.credentials := by
  rw [payload, render, String.toList_ofList,
    parse_chars (l := .inline) trivial s.lossless_credentials]

/-- The payload of a secret with texts as credentials holds these. -/
theorem parse_payload {username password : String} (hu : s.username = .text username)
    (hp : s.password = .text password) :
    parse s.payload.toList =
      .ok (.object [("username", .text username), ("password", .text password)]) := by
  rw [parse_payload_eq, credentials, hu, hp]
  rfl

/-- The public view of a secret is read back if its labels have distinct keys. -/
theorem parse_publicText (h : (s.labels.map Prod.fst).Nodup) :
    parse s.publicText.toList = .ok s.view := by
  have hblank : (Layout.indented ['\t']).Blank := by
    intro c hc
    rw [List.mem_singleton.mp hc]
    rfl
  rw [publicText, render, String.toList_ofList, parse_chars hblank (lossless_view h)]

/-! ## Characters -/

theorem ascii_payload (s : Secret) : Ascii s.payload.toList := by
  intro c hc
  rw [payload, render, String.toList_ofList] at hc
  rcases admits_chars s.lossless_credentials 0 c hc with h | ⟨depth, h⟩
  · exact h
  · exact absurd h List.not_mem_nil

theorem ascii_publicText (h : (s.labels.map Prod.fst).Nodup) :
    ∀ c ∈ s.publicText.toList, AsciiChar c ∨ c = '\t' ∨ c = '\n' := by
  intro c hc
  rw [publicText, render, String.toList_ofList] at hc
  rcases admits_chars (lossless_view h) 0 c hc with hascii | ⟨depth, hbreak⟩
  · exact .inl hascii
  · rcases List.mem_cons.mp hbreak with rfl | htab
    · exact .inr (.inr rfl)
    · obtain ⟨unit, hunit, hc⟩ := List.mem_flatten.mp htab
      rw [List.eq_of_mem_replicate hunit] at hc
      exact .inr (.inl (List.mem_singleton.mp hc))

/-! ## Lines -/

/-- The line of a member: behind tabs stand its name and what its value begins with. -/
def memberLine (depth : Nat) (name : String) (value : List Char) : List Char :=
  List.replicate depth '\t' ++ (textChars name ++ (':' :: ' ' :: value))

/-- The lines of labels, each but the last with a comma behind it. -/
def labelLines : Labels → List (List Char)
  | [] => []
  | [(k, v)] => [memberLine 2 k (textChars v)]
  | (k, v) :: label :: labels =>
    (memberLine 2 k (textChars v) ++ [',']) :: labelLines (label :: labels)

/-- The lines of the member that holds the labels: one if there are no labels, else one for each
label between those with its braces. -/
def labelsLines : Labels → List (List Char)
  | [] => [memberLine 1 "Labels" ['\x7b', '\x7d', ',']]
  | labels => memberLine 1 "Labels" ['\x7b'] :: (labelLines labels ++ [['\t', '\x7d', ',']])

/-- The lines of a public view: those of its four members between those with its braces. -/
def viewLines (id name description : String) (labels : Labels) : List (List Char) :=
  ['\x7b'] :: (memberLine 1 "ID" (textChars id) ++ [',']) ::
    (memberLine 1 "Name" (textChars name) ++ [',']) ::
      (labelsLines labels ++ [memberLine 1 "Description" (textChars description), ['\x7d']])

theorem length_labelLines (labels : Labels) : (labelLines labels).length = labels.length := by
  induction labels with
  | nil => rfl
  | cons label labels ih =>
    cases labels with
    | nil => rfl
    | cons next labels =>
      rw [labelLines, List.length_cons, ih]
      rfl

theorem length_viewLines (id name description : String) (labels : Labels) :
    (viewLines id name description labels).length =
      4 + (if labels = [] then 0 else labels.length + 1) + 2 := by
  cases labels with
  | nil => rfl
  | cons label labels =>
    rw [viewLines, labelsLines, if_neg (List.cons_ne_nil _ _)]
    · simp only [List.length_cons, List.length_append, List.length_nil, length_labelLines]
      omega
    · nofun

theorem lineFeed_notMem_textChars (s : String) : '\n' ∉ textChars s :=
  fun h => absurd (ascii_textChars s _ h) (by decide)

/-- A member has no line break but behind what its value begins with. -/
theorem lineFeed_notMem_memberLine (depth : Nat) (name : String) {value : List Char}
    (h : '\n' ∉ value) : '\n' ∉ memberLine depth name value := by
  unfold memberLine
  simp only [List.mem_append, List.mem_cons, not_or]
  refine ⟨fun htab => ?_, lineFeed_notMem_textChars name, by decide, by decide, h⟩
  exact absurd (List.eq_of_mem_replicate htab) (by decide)

/-- The text of some labels is split into their lines. -/
theorem splitAtEach_labels (k v : String) (labels : Labels) (rest : List Char) :
    splitAtEach '\n' (memberLine 2 k (textChars v) ++
      (fieldChars (.indented ['\t']) 2 (labels.map fun (k, v) => (k, .text v)) ++ '\n' :: rest)) =
        labelLines ((k, v) :: labels) ++ splitAtEach '\n' rest := by
  have hline (k v : String) : '\n' ∉ memberLine 2 k (textChars v) :=
    lineFeed_notMem_memberLine 2 k (lineFeed_notMem_textChars v)
  induction labels generalizing k v with
  | nil =>
    rw [List.map_nil, fieldChars, List.nil_append, splitAtEach_append (hline k v)]
    rfl
  | cons label labels ih =>
    obtain ⟨k', v'⟩ := label
    -- The separator ends this line with its comma and begins the next one with its tabs.
    have hchars : memberLine 2 k (textChars v) ++ (fieldChars (.indented ['\t']) 2
        (((k', v') :: labels).map fun (k, v) => (k, .text v)) ++ '\n' :: rest) =
      (memberLine 2 k (textChars v) ++ [',']) ++ '\n' :: (memberLine 2 k' (textChars v') ++
        (fieldChars (.indented ['\t']) 2 (labels.map fun (k, v) => (k, .text v)) ++
          '\n' :: rest)) := by
      simp only [List.map_cons, fieldChars, chars, memberLine, List.append_assoc, List.cons_append]
      rfl
    have hcomma : '\n' ∉ memberLine 2 k (textChars v) ++ [','] := by
      rw [List.mem_append, not_or]
      exact ⟨hline k v, by decide⟩
    rw [hchars, splitAtEach_append hcomma, ih k' v']
    rfl

/-- The text of the member that holds the labels is split into its lines. -/
theorem splitAtEach_labelsMember (labels : Labels) (rest : List Char) :
    splitAtEach '\n' (memberLine 1 "Labels" (chars (.indented ['\t']) 1
      (.object (labels.map fun (k, v) => (k, .text v)))) ++ ',' :: '\n' :: rest) =
        labelsLines labels ++ splitAtEach '\n' rest := by
  cases labels with
  | nil =>
    have hline : '\n' ∉ memberLine 1 "Labels" ['\x7b', '\x7d', ','] :=
      lineFeed_notMem_memberLine 1 "Labels" (by decide)
    have hchars : memberLine 1 "Labels" ['\x7b', '\x7d'] ++ ',' :: '\n' :: rest =
      memberLine 1 "Labels" ['\x7b', '\x7d', ','] ++ '\n' :: rest := rfl
    rw [List.map_nil, chars, hchars, splitAtEach_append hline]
    rfl
  | cons label labels =>
    obtain ⟨k, v⟩ := label
    have hline : '\n' ∉ memberLine 1 "Labels" ['\x7b'] :=
      lineFeed_notMem_memberLine 1 "Labels" (by decide)
    have hclosing : '\n' ∉ ['\t', '\x7d', ','] := by decide
    have hchars : memberLine 1 "Labels" (chars (.indented ['\t']) 1
        (.object (((k, v) :: labels).map fun (k, v) => (k, .text v)))) ++ ',' :: '\n' :: rest =
      memberLine 1 "Labels" ['\x7b'] ++ '\n' :: (memberLine 2 k (textChars v) ++
        (fieldChars (.indented ['\t']) 2 (labels.map fun (k, v) => (k, .text v)) ++
          '\n' :: (['\t', '\x7d', ','] ++ '\n' :: rest))) := by
      simp only [List.map_cons, chars, memberLine, List.append_assoc, List.cons_append]
      rfl
    rw [hchars, splitAtEach_append hline, splitAtEach_labels, splitAtEach_append hclosing]
    exact congrArg (memberLine 1 "Labels" ['\x7b'] :: ·) (List.append_cons _ _ _)

/-- The public view of a secret with a text as its description is split into its lines. -/
theorem splitAtEach_publicText (h : s.description = .text description) :
    splitAtEach '\n' s.publicText.toList = viewLines s.id s.name description s.labels := by
  have hchars : s.publicText.toList = ['\x7b'] ++ '\n' ::
      ((memberLine 1 "ID" (textChars s.id) ++ [',']) ++ '\n' ::
        ((memberLine 1 "Name" (textChars s.name) ++ [',']) ++ '\n' ::
          (memberLine 1 "Labels" (chars (.indented ['\t']) 1
              (.object (s.labels.map fun (k, v) => (k, .text v)))) ++ ',' :: '\n' ::
            (memberLine 1 "Description" (textChars description) ++ '\n' :: ['\x7d'])))) := by
    rw [publicText, render, String.toList_ofList, view, h, Supplied.toJson]
    simp only [chars, fieldChars, memberLine, List.append_assoc, List.cons_append, List.nil_append]
    rfl
  have hmember (name value : String) : '\n' ∉ memberLine 1 name (textChars value) ++ [','] := by
    rw [List.mem_append, not_or]
    exact ⟨lineFeed_notMem_memberLine 1 name (lineFeed_notMem_textChars value), by decide⟩
  have hlast : '\n' ∉ memberLine 1 "Description" (textChars description) :=
    lineFeed_notMem_memberLine 1 "Description" (lineFeed_notMem_textChars description)
  rw [hchars, splitAtEach_append (by decide), splitAtEach_append (hmember "ID" s.id),
    splitAtEach_append (hmember "Name" s.name), splitAtEach_labelsMember,
    splitAtEach_append hlast]
  rfl

/-! ## The views -/

/-- The views of a secret round-trip. Whatever texts a secret is made of, its public view is read as
the object of its four members, with its labels in their order, and its payload as the object of its
credentials. The payload is one line of printable ASCII. The public view is printable ASCII with
tabs and line feeds; its lines are those of its four members, one more for each label and one more
for the closing brace behind them, between those of its own braces. So no line feed of it comes from
a text. -/
theorem views_read_back (id name description username password : String) {labels : Labels}
    (h : (labels.map Prod.fst).Nodup) :
    let s : Secret := { id, name, labels, description := .text description
                        username := .text username, password := .text password }
    parse s.publicText.toList = .ok (.object [
        ("ID", .text id),
        ("Name", .text name),
        ("Labels", .object (labels.map fun (k, v) => (k, .text v))),
        ("Description", .text description)]) ∧
      parse s.payload.toList =
        .ok (.object [("username", .text username), ("password", .text password)]) ∧
      Ascii s.payload.toList ∧
      (∀ c ∈ s.publicText.toList, AsciiChar c ∨ c = '\t' ∨ c = '\n') ∧
      splitAtEach '\n' s.publicText.toList = viewLines id name description labels ∧
      (viewLines id name description labels).length =
        4 + (if labels = [] then 0 else labels.length + 1) + 2 := by
  intro s
  refine ⟨parse_publicText h, parse_payload rfl rfl, ascii_payload s, ascii_publicText h,
    splitAtEach_publicText rfl, length_viewLines id name description labels⟩

/-- Line feeds, quotes, backslashes and characters beyond the basic plane are escaped in the texts:
the public view of a secret with two labels has nine lines. -/
theorem views_of_escaped_texts :
    let labels : Labels := [("a\nb", "\"\\"), ("é", "")]
    let s : Secret := { name := "n", labels, description := .text "x\ty"
                        username := .text "😀", password := .text "\x00" }
    (labels.map Prod.fst).Nodup ∧
      s.publicText = "\x7b\n\t\"ID\": \"\",\n\t\"Name\": \"n\",\n\t\"Labels\": \x7b\n" ++
        "\t\t\"a\\nb\": \"\\\"\\\\\",\n\t\t\"\\u00e9\": \"\"\n\t\x7d,\n" ++
        "\t\"Description\": \"x\\ty\"\n\x7d" ∧
      s.payload = "\x7b\"username\": \"\\ud83d\\ude00\", \"password\": \"\\u0000\"\x7d" ∧
      parse s.publicText.toList = .ok (.object [("ID", .text ""), ("Name", .text "n"),
        ("Labels", .object [("a\nb", .text "\"\\"), ("é", .text "")]),
        ("Description", .text "x\ty")]) ∧
      parse s.payload.toList =
        .ok (.object [("username", .text "😀"), ("password", .text "\x00")]) ∧
      (splitAtEach '\n' s.publicText.toList).length = 9 := by
  intro labels s
  have hn : (labels.map Prod.fst).Nodup := by decide
  obtain ⟨hview, hpayload, -, -, hlines, hlength⟩ :=
    views_read_back "" "n" "x\ty" "😀" "\x00" hn
  exact ⟨hn, by decide +kernel, by decide +kernel, hview, hpayload,
    (congrArg List.length hlines).trans hlength⟩

end Secret

end CloudSecrets
