import EditorBridge.Json.Shape

/-!
# The answer to the handshake

What a language server says about itself in its first answer: its capabilities and, if it likes, its
name. The bridge keeps the capabilities that it knows and leaves the others out.
-/

namespace EditorBridge.Capabilities

open Shape

/-! ## 1. Building blocks -/

/-- A member that may be missing or null. -/
def opt (name : String) (s : Shape) : String × Bool × Shape := (name, false, s)

/-- A member that has to be there. -/
def req (name : String) (s : Shape) : String × Bool × Shape := (name, true, s)

/-- The switch for progress reports, which many options share. -/
def progress : String × Bool × Shape := opt "workDoneProgress" boolean

/-- Options with progress reports: such a record is never given as an array. -/
def options (name : String) (fields : List (String × Bool × Shape)) : Shape :=
  record name false (fields ++ [progress])

/-- A switch or options. -/
def switchOr (name : String) (s : Shape) : Shape := firstOf name [boolean, s]

/-- A switch or options of no further content. -/
def simple (name : String) (inner : String) : Shape := switchOr name (options inner [])

/-- The documents that a registration is for. -/
def selector : Shape :=
  list (record "DocumentFilter" true [opt "language" string, opt "scheme" string, opt "pattern" string])

/-- A registration for documents. -/
def registration (name : String) : Shape :=
  record name true [opt "documentSelector" selector, opt "id" string]

/-! ## 2. The larger options -/

/-- How documents are kept in step. -/
def documentSync : Shape :=
  firstOf "TextDocumentSyncCapability"
    [i32,
      record "TextDocumentSyncOptions" true
        [opt "openClose" boolean, opt "change" i32, opt "willSave" boolean,
          opt "willSaveWaitUntil" boolean,
          opt "save" (switchOr "TextDocumentSyncSaveOptions"
            (record "SaveOptions" true [opt "includeText" boolean]))]]

/-- Completion. -/
def completion : Shape :=
  options "CompletionOptions"
    [opt "resolveProvider" boolean, opt "triggerCharacters" (list string),
      opt "allCommitCharacters" (list string),
      opt "completionItem" (record "CompletionOptionsCompletionItem" true
        [opt "labelDetailsSupport" boolean])]

/-- Operations on files. -/
def fileOperations : Shape :=
  let pattern := record "FileOperationPattern" true
    [req "glob" string, opt "matches" string,
      opt "options" (record "FileOperationPatternOptions" true [opt "ignoreCase" boolean])]
  let filter := record "FileOperationFilter" true [opt "scheme" string, req "pattern" pattern]
  let operation := record "FileOperationRegistrationOptions" true [req "filters" (list filter)]
  record "WorkspaceFileOperationsServerCapabilities" true
    [opt "didCreate" operation, opt "willCreate" operation, opt "didRename" operation,
      opt "willRename" operation, opt "didDelete" operation, opt "willDelete" operation]

/-- The workspace. -/
def workspace : Shape :=
  record "WorkspaceServerCapabilities" true
    [opt "workspaceFolders" (record "WorkspaceFoldersServerCapabilities" true
        [opt "supported" boolean, opt "changeNotifications" (firstOf "OneOf" [boolean, string])]),
      opt "fileOperations" fileOperations]

/-- Semantic tokens. -/
def semanticTokens : Shape :=
  let legend := record "SemanticTokensLegend" true
    [req "tokenTypes" (list string), req "tokenModifiers" (list string)]
  let full := switchOr "SemanticTokensFullOptions"
    (record "SemanticTokensFullOptions" true [opt "delta" boolean])
  let fields := [req "legend" legend, opt "range" boolean, opt "full" full]
  firstOf "SemanticTokensServerCapabilities"
    [options "SemanticTokensOptions" fields]

/-- Diagnostics on request. -/
def diagnostics : Shape :=
  firstOf "DiagnosticServerCapabilities"
    [options "DiagnosticOptions"
      [opt "identifier" string, req "interFileDependencies" boolean, req "workspaceDiagnostics" boolean]]

/-! ## 3. All of them -/

/-- The capabilities of a server, in declaration order. -/
def server : Shape :=
  record "ServerCapabilities" true
    [opt "positionEncoding" string,
      opt "textDocumentSync" documentSync,
      opt "selectionRangeProvider" (simple "SelectionRangeProviderCapability" "SelectionRangeOptions"),
      opt "hoverProvider" (simple "HoverProviderCapability" "HoverOptions"),
      opt "completionProvider" completion,
      opt "signatureHelpProvider" (options "SignatureHelpOptions"
        [opt "triggerCharacters" (list string), opt "retriggerCharacters" (list string)]),
      opt "definitionProvider" (simple "OneOf" "DefinitionOptions"),
      opt "typeDefinitionProvider" (switchOr "TypeDefinitionProviderCapability"
        (registration "StaticTextDocumentRegistrationOptions")),
      opt "implementationProvider" (switchOr "ImplementationProviderCapability"
        (registration "StaticTextDocumentRegistrationOptions")),
      opt "referencesProvider" (simple "OneOf" "ReferencesOptions"),
      opt "documentHighlightProvider" (simple "OneOf" "DocumentHighlightOptions"),
      opt "documentSymbolProvider" (switchOr "OneOf"
        (options "DocumentSymbolOptions" [opt "label" string])),
      opt "workspaceSymbolProvider" (switchOr "OneOf"
        (options "WorkspaceSymbolOptions" [opt "resolveProvider" boolean])),
      opt "codeActionProvider" (switchOr "CodeActionProviderCapability"
        (options "CodeActionOptions" [opt "codeActionKinds" (list string), opt "resolveProvider" boolean])),
      opt "codeLensProvider" (record "CodeLensOptions" true [opt "resolveProvider" boolean]),
      opt "documentFormattingProvider" (simple "OneOf" "DocumentFormattingOptions"),
      opt "documentRangeFormattingProvider" (simple "OneOf" "DocumentRangeFormattingOptions"),
      opt "documentOnTypeFormattingProvider" (record "DocumentOnTypeFormattingOptions" true
        [req "firstTriggerCharacter" string, opt "moreTriggerCharacter" (list string)]),
      opt "renameProvider" (switchOr "OneOf" (options "RenameOptions" [opt "prepareProvider" boolean])),
      opt "documentLinkProvider" (options "DocumentLinkOptions" [opt "resolveProvider" boolean]),
      opt "colorProvider" (switchOr "ColorProviderCapability" (record "ColorProviderOptions" true [])),
      opt "foldingRangeProvider" (switchOr "FoldingRangeProviderCapability"
        (record "FoldingProviderOptions" true [])),
      opt "declarationProvider" (simple "DeclarationCapability" "DeclarationOptions"),
      opt "executeCommandProvider" (options "ExecuteCommandOptions" [req "commands" (list string)]),
      opt "workspace" workspace,
      opt "callHierarchyProvider" (simple "CallHierarchyServerCapability" "CallHierarchyOptions"),
      opt "semanticTokensProvider" semanticTokens,
      opt "monikerProvider" (simple "OneOf" "MonikerOptions"),
      opt "linkedEditingRangeProvider" (simple "LinkedEditingRangeServerCapabilities"
        "LinkedEditingRangeOptions"),
      opt "inlineValueProvider" (simple "OneOf" "InlineValueOptions"),
      opt "inlayHintProvider" (switchOr "OneOf"
        (options "InlayHintOptions" [opt "resolveProvider" boolean])),
      opt "diagnosticProvider" diagnostics,
      opt "experimental" any]

/-- The answer to the handshake. -/
def handshakeResult : Shape :=
  record "InitializeResult" true
    [req "capabilities" server,
      opt "serverInfo" (record "ServerInfo" true [req "name" string, opt "version" string])]

end EditorBridge.Capabilities
