import ServiceBus.Proofs.Json.Read
import ServiceBus.Store.Directory

/-!
# Record files are read back

A record wraps its data in one more object, so of what nests up to the reader's limit the deepest
values no longer fit (`answer_write_of_isWhole`). Data that fit are read back as they are
(`answer_write`).
-/

namespace ServiceBus
open Json Json.Token Document

namespace Record

/-- What the file of a record says, whatever its data say. -/
theorem parse?_write {id : String} {data : Json} {r : Raw}
    (h : Raw.parse? (ofString data.render) = some r) :
    Raw.parse? (write ⟨currentVersion, id, data⟩) = some (.object
      [(some "version", .number (some (.int currentVersion))), (some "id", .text (some id)),
        (some "data", r)]) := by
  obtain ⟨ts, hts, read⟩ := Raw.read_of_parse? h
  have hd : write ⟨currentVersion, id, data⟩ = some '\x7b' :: (ofString (renderText "version") ++
      some ':' :: (ofString (renderNumber (.int currentVersion)) ++ some ',' ::
      (ofString (renderText "id") ++ some ':' :: (ofString (renderText id) ++ some ',' ::
      (ofString (renderText "data") ++ some ':' :: (ofString data.render ++ [some '\x7d'])))))) := by
    simp [write, toJson, render, renderMembers, ofString, nat]
  obtain ⟨n, hn, hv⟩ := numeral?_renderNumber (i := (currentVersion : Nat)) rfl
  have scanned : scan (write ⟨currentVersion, id, data⟩) = some (.openObject ::
      .scalar (.text (some "version")) :: .colon :: .scalar (.number (some (.int currentVersion))) ::
      .comma :: .scalar (.text (some "id")) :: .colon :: .scalar (.text (some id)) ::
      .comma :: .scalar (.text (some "data")) :: .colon :: (ts ++ [.closeObject])) := by
    have closed := scan_parted (c := '\x7d') (t := .closeObject) rfl rfl rfl hts scan_nil
    have last := scan_parted (c := ',') (t := .comma) rfl rfl rfl (scan_renderText id)
      (scan_parted (c := ':') (t := .colon) rfl rfl rfl (scan_renderText "data") closed)
    have more := scan_parted (c := ',') (t := .comma) rfl rfl rfl (scan_of_numeral? hn)
      (scan_parted (c := ':') (t := .colon) rfl rfl rfl (scan_renderText "id") last)
    have all := scan_parted (c := ':') (t := .colon) rfl rfl rfl (scan_renderText "version") more
    rw [hd, scan_mark (t := .openObject) rfl rfl, all, hv]
    rfl
  refine Raw.parse?_of_read scanned ?_
  show (ts ++ [Token.closeObject]).foldlM Reader.step ⟨.member [(some "id", .text (some id)),
    (some "version", .number (some (.int currentVersion)))] (some "data") :: [], .value⟩ = _
  rw [List.foldlM_append, read]
  rfl

theorem read?_write {id : String} {data : Json} {r : Raw}
    (h : Raw.parse? (ofString data.render) = some r) :
    read? (write ⟨currentVersion, id, data⟩) =
      (r.value? (Raw.nesting - 1)).map fun v => ⟨currentVersion, id, v⟩ := by
  rw [read?, parse?_write h, Option.map_eq_bind]
  rfl

end Record

/-- Inside of a record the written form of the value is read back as the value. -/
def Json.ReadsBack (v : Json) : Prop :=
  ((Raw.parse? (ofString v.render)).bind (Raw.value? (Raw.nesting - 1))) = some v

theorem Json.readsBack_of_isWhole {v : Json} (whole : v.isWhole = true) (ordered : v.canonical = v)
    (depth : v.depth < Raw.nesting) : v.ReadsBack := by
  rw [ReadsBack, parse?_render whole, Option.bind_some, value?_raw, if_pos (by omega), ordered]

namespace DirectoryCall

theorem answer_write {id : String} {data : Json} (h : data.ReadsBack) :
    answer id (Record.write ⟨Record.currentVersion, id, data⟩) = .ok (some data) := by
  obtain ⟨r, hr, hv⟩ := Option.bind_eq_some_iff.1 h
  rw [answer, Record.read?_write hr, hv]
  rfl

theorem answer_write_of_isWhole {id : String} {data : Json} (whole : data.isWhole = true)
    (ordered : data.canonical = data) :
    answer id (Record.write ⟨Record.currentVersion, id, data⟩) =
      if data.depth < Raw.nesting then .ok (some data)
      else .error (.serialization "not a record") := by
  split
  · next depth => exact answer_write (Json.readsBack_of_isWhole whole ordered depth)
  · next depth =>
    have limit : 0 < Raw.nesting := by decide
    rw [answer, Record.read?_write (parse?_render whole), value?_raw, if_neg (by omega)]
    rfl

end DirectoryCall
end ServiceBus
