/-!
# The document of the result panel

`Panel.html` is loaded into a new panel unless the configuration names another file. Its script shows
each chunk of output as a line, turns a link to a model instance into an anchor, and posts the messages
that the bridge understands.
-/

namespace EditorBridge.Panel

/-- The built-in document. -/
def html : String :=
  "<!DOCTYPE html>\n" ++
  "<html lang=\"en\">\n" ++
  "<head>\n" ++
  "    <meta charset=\"UTF-8\">\n" ++
  "    <meta name=\"viewport\" content=\"width=device-width, initial-scale=1.0\">\n" ++
  "    <title>Alloy</title>\n" ++
  "    <style>\n" ++
  "        body \x7b font-family: var(--vscode-editor-font-family, monospace); padding: 0 1em; \x7d\n" ++
  "        #toolbar \x7b position: sticky; top: 0; padding: 0.5em 0; background: inherit; \x7d\n" ++
  "        .line \x7b white-space: pre-wrap; margin: 0.1em 0; \x7d\n" ++
  "        .bold \x7b font-weight: bold; \x7d\n" ++
  "        .type-1 \x7b color: var(--vscode-errorForeground, #c00); \x7d\n" ++
  "        .type-2 \x7b color: var(--vscode-editorWarning-foreground, #b80); \x7d\n" ++
  "        a \x7b cursor: pointer; \x7d\n" ++
  "    </style>\n" ++
  "</head>\n" ++
  "<body>\n" ++
  "    <div id=\"toolbar\"><button id=\"stop\">Stop</button></div>\n" ++
  "    <div id=\"output\"></div>\n" ++
  "    <script>\n" ++
  "        const vscode = typeof acquireVsCodeApi === \"function\" ? acquireVsCodeApi() : \x7b postMessage() \x7b\x7d \x7d;\n" ++
  "        const output = document.getElementById(\"output\");\n" ++
  "        const linkPattern = /(\\S+\\.(?:xml|als)(?:#\\S*)?)/;\n" ++
  "\n" ++
  "        document.getElementById(\"stop\").addEventListener(\"click\", () => \x7b\n" ++
  "            vscode.postMessage(\x7b method: \"stop\" \x7d);\n" ++
  "        \x7d);\n" ++
  "\n" ++
  "        window.addEventListener(\"message\", event => \x7b\n" ++
  "            const \x7b message, messageType, bold \x7d = event.data;\n" ++
  "            const line = document.createElement(\"div\");\n" ++
  "            line.className = \"line type-\" + messageType + (bold ? \" bold\" : \"\");\n" ++
  "            const match = linkPattern.exec(message || \"\");\n" ++
  "            if (match) \x7b\n" ++
  "                const before = message.slice(0, match.index);\n" ++
  "                const after = message.slice(match.index + match[0].length);\n" ++
  "                const anchor = document.createElement(\"a\");\n" ++
  "                anchor.textContent = match[0];\n" ++
  "                anchor.addEventListener(\"click\", () => \x7b\n" ++
  "                    vscode.postMessage(\x7b method: \"model\", data: \x7b link: match[0] \x7d \x7d);\n" ++
  "                \x7d);\n" ++
  "                line.append(before, anchor, after);\n" ++
  "                vscode.postMessage(\x7b method: \"instanceCreated\", data: \x7b link: match[0] \x7d \x7d);\n" ++
  "            \x7d else \x7b\n" ++
  "                line.textContent = message;\n" ++
  "            \x7d\n" ++
  "            output.appendChild(line);\n" ++
  "            line.scrollIntoView();\n" ++
  "        \x7d);\n" ++
  "    </script>\n" ++
  "</body>\n" ++
  "</html>\n"

end EditorBridge.Panel
