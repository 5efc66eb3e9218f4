import TapeMachine.Proofs.Ordinary

-- The labels of a listing and the lines as they are written. A listing defines the labels of its
-- data, of its buffers and of its code, each of them once, and mentions no others; what it writes
-- is plain text, so that its lines can be told apart again.
namespace TapeMachine.Assembly

theorem split_text {listing : Listing} (some : listing.lines ≠ [])
    (plain : ∀ line ∈ listing.lines, isPlain line.text = true) :
    (listing.text.split '\n').toList.map (·.copy) = listing.lines.map Line.text ++ [""] := by
  have whole : listing.text =
      (String.singleton '\n').intercalate (listing.lines.map Line.text ++ [""]) := by
    rw [String.intercalate_append_of_ne_nil (by simpa using some) (by simp),
      String.intercalate_singleton,String.append_empty]
    rfl
  have apart : ∀ text ∈ listing.lines.map Line.text ++ [""], '\n' ∉ text.toList := by
    intro text member found
    rcases List.mem_append.mp member with written | last
    · obtain ⟨line,emitted,rfl⟩ := List.mem_map.mp written
      exact not_newline_of_plain (plain line emitted) found
    · rw [List.mem_singleton.mp last] at found
      cases found
  rw [whole,String.toList_split_intercalate apart]
  simp

structure WellLabeled (program : Program) (listing : Listing) : Prop where
  once : (labels listing.lines).Nodup
  defined : ∀ line ∈ listing.lines, ∀ label ∈ line.mentioned, label ∈ labels listing.lines
  spelled : ∀ line ∈ listing.lines, ∀ label, line.defined? = some label → ∃ rest,
    line.text = label ++ ":" ++ rest ∨ line.text = indented (label ++ ":" ++ rest)
  -- No line is taken over as it was given, so these are all the labels in the text.
  made : ∀ line ∈ listing.lines, ∀ text, line ≠ .verbatim text
  data : ∃ run texts rest, program.runs = [run] ∧
    texts = (fixedTexts.map Prod.fst ++
      (program.rules.flatMap (fun rule => [rule.state,rule.next,rule.read,rule.write]) ++
        run.state :: run.tape)).eraseDups ∧
    texts.Nodup ∧ (∀ text, text ∈ texts ↔ text ∈ fixedTexts.map Prod.fst ∨ text ∈ program.symbols) ∧
    listing.symbols = texts.map (fun text => (text,textName text)) ∧
    listing.lines = [.elf,.empty,.part ".data" "writeable"] ++
      texts.map (fun text => .data ("str_" ++ textName text) (textBytes text)) ++
      .empty :: .part ".bss" "writeable" :: rest ∧
    ∀ line ∈ rest, ∀ label bytes, line ≠ .data label bytes
  plain : ∀ line ∈ listing.lines, ∀ c ∈ line.text.toList, c.toNat < 128 ∧ c ≠ '\n'
  read : read? listing.text = some listing.lines
  split : (listing.text.split '\n').toList.map (·.copy) = listing.lines.map Line.text ++ [""]

theorem compiled_labeled {sizes : Sizes} {program : Program} {listing : Listing}
    (compiled : sizes.compile program = .ok listing) : WellLabeled program listing := by
  obtain ⟨run,state,accepted,symbols,lines⟩ := compiled_parts compiled
  have plain : ∀ line ∈ listing.lines, isPlain line.text = true := fun line =>
    line_plain accepted lines
  exact {
    once := labels_nodup accepted lines
    defined := fun line member label => mentioned_defined accepted lines member
    spelled := fun _ _ _ => Line.text_of_defined
    made := by
      intro line member text
      rintro rfl
      cases line_legible accepted lines member
    data := by
      refine ⟨run,_,_,accepted.single,rfl,eraseDups_nodup _,mem_declarations accepted.single,symbols,
        lines,?_⟩
      intro line member label bytes same
      have usual := (accepted.labeled_code state).ordinary line
        (List.mem_cons_of_mem _ (List.mem_cons_of_mem _ member))
      exact usual.apart label bytes same
    plain := by
      intro line member c found
      simpa using List.all_eq_true.mp (plain line member) c found
    read := read?_compiled compiled
    split := by
      refine split_text ?_ plain
      rw [lines]
      exact List.cons_ne_nil _ _ }

def motley : Program :=
  .of [⟨"A"," ","[",.right,"x"⟩,⟨"x","\n","-",.left,"A"⟩] [⟨["-"," "],"A"⟩] []

theorem compiled_labeled_motley : ∃ listing, Sizes.compile {} motley = .ok listing ∧
    WellLabeled motley listing := by
  have accepted : Accepted {} motley ⟨["-"," "],"A"⟩ :=
    ⟨rfl,by decide,by simp,by decide,by decide⟩
  have short : Text.isWritable 256 = true := by decide +kernel
  obtain ⟨listing,compiled⟩ := compile_ok_of_accepted accepted ⟨short,short⟩
  exact ⟨listing,compiled,compiled_labeled compiled⟩

example : (declarations motley ⟨["-"," "],"A"⟩).eraseDups.map textName =
    ["bra","ket","rightarrow","leftarrow","caret","space","nl","halted","A","x","x2d"] := by
  decide

end TapeMachine.Assembly
